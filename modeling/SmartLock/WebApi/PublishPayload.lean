import SmartLock.DotNet.JsonGrammar
import SmartLock.WebApi.MqttHostedService

/-!
# What a publish has to say

The handler reads a payload in four stages (UTF-8, JSON, the message, the token). Here they are one
statement about the text that the payload decodes to: a publish makes a call exactly when this text
is a JSON object whose last member named `JwtToken` is a readable token. Bytes that are no UTF-8
decode to U+FFFD, which a string of the text may hold.
-/

namespace SmartLock

/-! ## The members of the object -/

/-- A member named `JwtToken`, in any letter case. -/
def isJwtToken (member : Option (List Char) × Json) : Bool :=
  member.1.any fun name => Json.sameName name "JwtToken".toList

/-- A member that does not stop the reading: its name pairs up, and under the name `JwtToken` stands
a string that pairs up or null. -/
def Readable (member : Option (List Char) × Json) : Prop :=
  member.1.isSome ∧
    (isJwtToken member → member.2 = .null ∨ ∃ s, member.2 = .string (some s))

/-- The token in the value of a member. -/
def memberToken : Json → Option String
  | .string (some s) => some (String.ofList s)
  | _ => none

theorem readMember_iff {m m' : MqttLockAccessRequest} {member : Option (List Char) × Json} :
    readMember m member = .ok m' ↔
      Readable member ∧ m' = if isJwtToken member then ⟨memberToken member.2⟩ else m := by
  obtain ⟨_ | name, value⟩ := member
  · exact ⟨fun h => (by cases h), fun ⟨⟨h, _⟩, _⟩ => (by cases h)⟩
  by_cases hname : isJwtToken (some name, value) = true
  · have hsame : Json.sameName name "JwtToken".toList = true := hname
    unfold readMember
    rw [if_pos hname]
    dsimp only
    rw [if_pos hsame]
    cases value with
    | null =>
      exact ⟨fun h => ⟨⟨rfl, fun _ => Or.inl rfl⟩, (Except.ok.inj h).symm⟩, fun ⟨_, h⟩ => h ▸ rfl⟩
    | string s =>
      cases s with
      | none =>
        refine ⟨fun h => (by cases h), fun ⟨⟨_, hvalue⟩, _⟩ => ?_⟩
        rcases hvalue hname with h | ⟨s, h⟩ <;> cases h
      | some s =>
        exact ⟨fun h => ⟨⟨rfl, fun _ => Or.inr ⟨s, rfl⟩⟩, (Except.ok.inj h).symm⟩,
          fun ⟨_, h⟩ => h ▸ rfl⟩
    | _ =>
      refine ⟨fun h => (by cases h), fun ⟨⟨_, hvalue⟩, _⟩ => ?_⟩
      rcases hvalue hname with h | ⟨s, h⟩ <;> cases h
  · have hsame : ¬ Json.sameName name "JwtToken".toList = true := hname
    unfold readMember
    rw [if_neg hname]
    dsimp only
    rw [if_neg hsame]
    exact ⟨fun h => ⟨⟨rfl, fun h => absurd h hname⟩, (Except.ok.inj h).symm⟩, fun ⟨_, h⟩ => h ▸ rfl⟩

/-- What is left after the members: the last one named `JwtToken` counts. -/
def lastToken (m : MqttLockAccessRequest) (members : List (Option (List Char) × Json)) :
    MqttLockAccessRequest :=
  ((members.filter isJwtToken).getLast?).elim m fun member => ⟨memberToken member.2⟩

theorem lastToken_cons (m : MqttLockAccessRequest) (member : Option (List Char) × Json)
    (members : List (Option (List Char) × Json)) :
    lastToken m (member :: members) =
      lastToken (if isJwtToken member then ⟨memberToken member.2⟩ else m) members := by
  unfold lastToken
  by_cases hname : isJwtToken member = true
  · rw [List.filter_cons_of_pos hname, if_pos hname, List.getLast?_cons]
    cases (members.filter isJwtToken).getLast? <;> rfl
  · rw [List.filter_cons_of_neg hname, if_neg hname]

theorem foldlM_readMember_iff {m m' : MqttLockAccessRequest}
    {members : List (Option (List Char) × Json)} :
    members.foldlM readMember m = .ok m' ↔
      (∀ member ∈ members, Readable member) ∧ m' = lastToken m members := by
  induction members generalizing m with
  | nil => exact ⟨fun h => ⟨fun _ h => (by cases h), (Except.ok.inj h).symm⟩, fun ⟨_, h⟩ => h ▸ rfl⟩
  | cons member members ih =>
    rw [List.foldlM_cons, lastToken_cons, List.forall_mem_cons, and_assoc]
    cases hread : readMember m member with
    | error e =>
      refine ⟨fun h => (by cases h), fun ⟨h, _⟩ => ?_⟩
      rw [readMember_iff.mpr ⟨h, rfl⟩] at hread
      cases hread
    | ok next =>
      obtain ⟨hok, rfl⟩ := readMember_iff.mp hread
      exact ih.trans (and_iff_right hok).symm

/-! ## The text -/

/-- The payload is the UTF-8 text of an object without unreadable members, and the last one named
`JwtToken` is the string `t`. -/
def Carries (payload : List UInt8) (t : String) : Prop :=
  ∃ members, Json.Text (Utf8.getString payload) (.object members) ∧
    (∀ member ∈ members, Readable member) ∧
    ∃ member, (members.filter isJwtToken).getLast? = some member ∧
      member.2 = .string (some t.toList)

theorem lastToken_eq_some_iff {members : List (Option (List Char) × Json)} {t : String} :
    lastToken ⟨none⟩ members = ⟨some t⟩ ↔
      ∃ member, (members.filter isJwtToken).getLast? = some member ∧
        member.2 = .string (some t.toList) := by
  unfold lastToken
  cases (members.filter isJwtToken).getLast? with
  | none => simp
  | some member =>
    obtain ⟨name, value⟩ := member
    rw [Option.elim_some, MqttLockAccessRequest.mk.injEq]
    constructor
    · intro h
      unfold memberToken at h
      split at h
      · next s hs =>
        refine ⟨_, rfl, ?_⟩
        rw [hs, ← Option.some.inj h, String.toList_ofList]
      · cases h
    · rintro ⟨_, ⟨⟩, rfl⟩
      exact congrArg some String.ofList_toList

theorem deserialize_iff {s : List Char} {message : MqttLockAccessRequest} :
    deserialize s = .ok (some message) ↔
      ∃ members, Json.Text s (.object members) ∧
        (∀ member ∈ members, Readable member) ∧ message = lastToken ⟨none⟩ members := by
  simp only [← Json.parse_iff, ← foldlM_readMember_iff]
  unfold deserialize
  constructor
  · intro h
    split at h
    · cases h
    · next members hparse =>
      refine ⟨members, hparse, ?_⟩
      cases hread : members.foldlM readMember ⟨none⟩ with
      | error e =>
        rw [hread] at h
        cases h
      | ok m =>
        rw [hread] at h
        exact congrArg Except.ok (Option.some.inj (Except.ok.inj h))
    · cases h
  · rintro ⟨members, hparse, hread⟩
    rw [hparse]
    dsimp only
    rw [hread]
    rfl

theorem payloadMessage_iff {payload : List UInt8} {message : MqttLockAccessRequest} :
    payloadMessage payload = .ok message ↔
      ∃ members, Json.Text (Utf8.getString payload) (.object members) ∧
        (∀ member ∈ members, Readable member) ∧ message = lastToken ⟨none⟩ members := by
  rw [← deserialize_iff]
  unfold payloadMessage
  cases payload with
  | nil => exact ⟨fun h => (by cases h), fun h => (by cases h)⟩
  | cons b bs =>
    dsimp only
    cases deserialize (Utf8.getString (b :: bs)) with
    | error e => exact ⟨fun h => (by cases h), fun h => (by cases h)⟩
    | ok read =>
      cases read with
      | none => exact ⟨fun h => (by cases h), fun h => (by cases h)⟩
      | some m =>
        exact ⟨fun h => congrArg (fun x => Except.ok (some x)) (Except.ok.inj h),
          fun h => congrArg Except.ok (Option.some.inj (Except.ok.inj h))⟩

theorem payloadMessage_token_iff {payload : List UInt8} {t : String} :
    payloadMessage payload = .ok ⟨some t⟩ ↔ Carries payload t := by
  rw [payloadMessage_iff]
  simp only [eq_comm (a := (⟨some t⟩ : MqttLockAccessRequest)), lastToken_eq_some_iff]
  rfl

theorem payloadToken_iff {handler : JwtSecurityTokenHandler} {payload : List UInt8}
    {token : JwtSecurityToken} :
    payloadToken handler payload = some token ↔
      ∃ t, Carries payload t ∧ handler.readJwtToken t = some token := by
  simp only [← payloadMessage_token_iff]
  unfold payloadToken
  constructor
  · intro h
    split at h
    · next t ht => exact ⟨t, ht, h⟩
    · cases h
  · rintro ⟨t, ht, h⟩
    rw [ht]
    exact h

/-- **What the handler accepts is well formed, and what is well formed it accepts.** A publish makes
a call exactly when its client id is a Guid, and its payload decodes to the text of a JSON object
whose last member named `JwtToken` is a readable token; the call names that Guid and what the token
claims. -/
theorem publish_calls_iff (handler : JwtSecurityTokenHandler) (arg : InterceptingPublishEventArgs)
    (call : GrainCall) :
    (handleInterceptingPublishAsync handler arg).call = some call ↔
      ∃ lockId t token, Guid.tryParse arg.clientId = some lockId ∧ Carries arg.payload t ∧
        handler.readJwtToken t = some token ∧ call = tokenCall lockId token := by
  rw [handleInterceptingPublishAsync_call]
  simp only [Option.bind_eq_some_iff, Option.map_eq_some_iff, payloadToken_iff]
  constructor
  · rintro ⟨lockId, hid, token, ⟨t, ht, htoken⟩, rfl⟩
    exact ⟨lockId, t, token, hid, ht, htoken, rfl⟩
  · rintro ⟨lockId, t, token, hid, ht, htoken, rfl⟩
    exact ⟨lockId, hid, token, ⟨t, ht, htoken⟩, rfl⟩

/-! ## What a client writes -/

/-- A member of strings, as the reader gives it. -/
def stringMember (m : String × String) : Option (List Char) × Json :=
  (some m.1.toList, .string (some m.2.toList))

theorem lastToken_stringMember (members : List (String × String)) :
    lastToken ⟨none⟩ (members.map stringMember) =
      ⟨((members.filter fun m => Json.sameName m.1.toList "JwtToken".toList).getLast?).map (·.2)⟩ := by
  have hfilter : (members.map stringMember).filter isJwtToken =
      (members.filter fun m => Json.sameName m.1.toList "JwtToken".toList).map stringMember := by
    rw [List.filter_map]
    rfl
  unfold lastToken
  rw [hfilter, List.getLast?_map]
  cases (members.filter fun m => Json.sameName m.1.toList "JwtToken".toList).getLast? with
  | none => rfl
  | some m => exact congrArg (fun t => MqttLockAccessRequest.mk (some t)) String.ofList_toList

theorem payloadMessage_write (members : List (String × String)) :
    payloadMessage (Utf8.getBytes (String.ofList (Json.write members))) =
      .ok ⟨((members.filter fun m =>
        Json.sameName m.1.toList "JwtToken".toList).getLast?).map (·.2)⟩ := by
  refine payloadMessage_iff.mpr ⟨members.map stringMember, ?_, ?_, ?_⟩
  · rw [Utf8.getString_getBytes, String.toList_ofList]
    exact Json.text_write members
  · intro member hmember
    obtain ⟨m, -, rfl⟩ := List.mem_map.mp hmember
    exact ⟨rfl, fun _ => Or.inr ⟨_, rfl⟩⟩
  · exact (lastToken_stringMember members).symm

/-- The object with the token alone. -/
@[irreducible] def tokenPayload (t : String) : List UInt8 :=
  Utf8.getBytes (String.ofList (Json.write [("jwtToken", t)]))

theorem payloadMessage_tokenPayload (t : String) :
    payloadMessage (tokenPayload t) = .ok ⟨some t⟩ := by
  have hname : Json.sameName "jwtToken".toList "JwtToken".toList = true := by decide +kernel
  unfold tokenPayload
  rw [payloadMessage_write]
  simp only [List.filter_cons, hname, if_true, List.filter_nil, List.getLast?_singleton,
    Option.map_some]

/-- **Round trip.** Whatever names and values a client writes, the handler calls with the value
written last under `JwtToken`, in any letter case, and makes no call without one. -/
theorem publish_write (handler : JwtSecurityTokenHandler) (clientId topic : String)
    (members : List (String × String)) (processPublish : Bool) :
    (handleInterceptingPublishAsync handler
      ⟨clientId, topic, Utf8.getBytes (String.ofList (Json.write members)), processPublish⟩).call =
      (Guid.tryParse clientId).bind fun lockId =>
        (((members.filter fun m => Json.sameName m.1.toList "JwtToken".toList).getLast?).bind
          fun m => handler.readJwtToken m.2).map (tokenCall lockId) := by
  rw [handleInterceptingPublishAsync_call]
  unfold payloadToken
  dsimp only
  rw [payloadMessage_write]
  cases (members.filter fun m => Json.sameName m.1.toList "JwtToken".toList).getLast? <;> rfl

end SmartLock
