import SmartLock.DotNet.Json
import SmartLock.DotNet.Utf8
import SmartLock.Grains.LockGrain
import SmartLock.WebApi.LocksController

/-!
# The MQTT entry point

`MqttHostedService.cs`: the connection check, the handler that intercepts every publish, and
`SendMessageAsync`. The body of the handler runs inside a `try` whose `catch` only logs, so the
handler always completes; `intercept` is that body.
-/

namespace SmartLock

inductive MqttConnectReasonCode
  | success
  | badUserNameOrPassword
  deriving DecidableEq, Repr

/-- `HandleValidatingConnectionAsync`. Only the user name is looked at. -/
def handleValidatingConnectionAsync (userName : Option String) : MqttConnectReasonCode :=
  match userName.bind Guid.tryParse with
  | none => .badUserNameOrPassword
  | some _ => .success

/-- What the broker presents to the handler. -/
structure InterceptingPublishEventArgs where
  clientId : String
  topic : String
  payload : List UInt8
  processPublish : Bool
  deriving DecidableEq, Repr

/-- The exceptions that the handler catches. -/
inductive MqttException
  | argumentNull
  | json
  | nullReference
  | securityToken
  deriving DecidableEq, Repr

structure MqttLockAccessRequest where
  jwtToken : Option String
  deriving DecidableEq, Repr

/-- One member of the object: `JwtToken` in any letter case takes a string or null, every other
member is skipped. -/
def readMember (m : MqttLockAccessRequest) (member : Option (List Char) × Json) :
    Except MqttException MqttLockAccessRequest :=
  match member with
  | (none, _) => .error .json
  | (some name, value) =>
    if Json.sameName name "JwtToken".toList then
      match value with
      | .string (some s) => .ok ⟨some (String.ofList s)⟩
      | .null => .ok ⟨none⟩
      | _ => .error .json
    else .ok m

/-- `JsonSerializer.Deserialize<MqttLockAccessRequest>`; the text `null` gives null. -/
def deserialize (payloadStr : List Char) : Except MqttException (Option MqttLockAccessRequest) :=
  match Json.parse payloadStr with
  | some .null => .ok none
  | some (.object members) => (members.foldlM readMember ⟨none⟩).map some
  | _ => .error .json

/-- `GetUserIdAndRolesFromToken`: the claims are decoded and nothing else is checked. -/
def getUserIdAndRolesFromToken (handler : JwtSecurityTokenHandler) (jwtEncoded : Option String) :
    Except MqttException (Option String × List String) :=
  match jwtEncoded with
  | none => .error .argumentNull
  | some t =>
    match handler.readJwtToken t with
    | none => .error .securityToken
    | some token =>
      .ok (firstValue token.claims ClaimTypes.userData, valuesOf token.claims ClaimTypes.role)

/-- The message in a payload; the broker gives an empty payload as null. -/
def payloadMessage (payload : List UInt8) : Except MqttException MqttLockAccessRequest :=
  match payload with
  | [] => .error .argumentNull
  | _ =>
    match deserialize (Utf8.getString payload) with
    | .error e => .error e
    | .ok none => .error .nullReference
    | .ok (some message) => .ok message

/-- The body of the handler, from the payload to the grain call. -/
def intercept (handler : JwtSecurityTokenHandler) (lockId : Guid) (payload : List UInt8) :
    Except MqttException GrainCall := do
  let message ← payloadMessage payload
  let (userId, userRoles) ← getUserIdAndRolesFromToken handler message.jwtToken
  return ⟨lockId.toString, userId, userRoles, none⟩

/-- What the handler leaves behind when it has completed. -/
structure PublishOutcome where
  call : Option GrainCall
  logged : Option MqttException
  processPublish : Bool
  deriving DecidableEq, Repr

/-- `HandleInterceptingPublishAsync`. It never touches `ProcessPublish`. -/
def handleInterceptingPublishAsync (handler : JwtSecurityTokenHandler)
    (arg : InterceptingPublishEventArgs) : PublishOutcome :=
  match Guid.tryParse arg.clientId with
  | none => ⟨none, none, arg.processPublish⟩
  | some lockId =>
    match intercept handler lockId arg.payload with
    | .ok call => ⟨some call, none, arg.processPublish⟩
    | .error ex => ⟨none, some ex, arg.processPublish⟩

/-! ## Sending -/

/-- `JsonSerializer.Serialize` of an answer, with the enumeration written by name. -/
def serialize (message : LockAccessResultDto) : String :=
  match message.accessResult with
  | .granted => "\x7b\"AccessResult\":\"Granted\"\x7d"
  | .denied => "\x7b\"AccessResult\":\"Denied\"\x7d"

theorem serialize_inj {m m' : LockAccessResultDto} (h : serialize m = serialize m') : m = m' := by
  obtain ⟨_ | _⟩ := m <;> obtain ⟨_ | _⟩ := m'
  · rfl
  · exact absurd h (by decide)
  · exact absurd h (by decide)
  · rfl

/-- The sender of every message that the server injects. -/
def senderClientId : String := "SenderClientId"

/-- The message that `SendMessageAsync` injects, as the broker presents it to the handler. -/
def injected (m : LockMessage) : InterceptingPublishEventArgs where
  clientId := senderClientId
  topic := m.topic
  payload := Utf8.getBytes (serialize m.message)
  processPublish := true

theorem message_of_injected_payload {m m' : LockMessage}
    (h : (injected m).payload = (injected m').payload) : m.message = m'.message :=
  serialize_inj (Utf8.getBytes_inj h)

/-! ## What the handler does with a publish -/

/-- The readable token in a payload. -/
def payloadToken (handler : JwtSecurityTokenHandler) (payload : List UInt8) :
    Option JwtSecurityToken :=
  match payloadMessage payload with
  | .ok ⟨some t⟩ => handler.readJwtToken t
  | _ => none

/-- The call made for a decoded token. -/
def tokenCall (lockId : Guid) (token : JwtSecurityToken) : GrainCall :=
  ⟨lockId.toString, firstValue token.claims ClaimTypes.userData,
    valuesOf token.claims ClaimTypes.role, none⟩

theorem intercept_toOption (handler : JwtSecurityTokenHandler) (lockId : Guid)
    (payload : List UInt8) :
    (intercept handler lockId payload).toOption =
      (payloadToken handler payload).map (tokenCall lockId) := by
  unfold intercept payloadToken
  cases payloadMessage payload with
  | error e => rfl
  | ok message =>
    obtain ⟨_ | t⟩ := message
    · rfl
    · simp only [getUserIdAndRolesFromToken, bind, Except.bind]
      cases handler.readJwtToken t <;> rfl

/-- **The calls of the handler.** A publish makes a call exactly when its client id is a Guid and
its payload carries a readable token; the key is the Guid printed again. -/
theorem handleInterceptingPublishAsync_call (handler : JwtSecurityTokenHandler)
    (arg : InterceptingPublishEventArgs) :
    (handleInterceptingPublishAsync handler arg).call =
      (Guid.tryParse arg.clientId).bind fun lockId =>
        (payloadToken handler arg.payload).map (tokenCall lockId) := by
  unfold handleInterceptingPublishAsync
  cases Guid.tryParse arg.clientId with
  | none => rfl
  | some lockId =>
    rw [Option.bind_some, ← intercept_toOption]
    dsimp only
    cases intercept handler lockId arg.payload <;> rfl

@[simp] theorem handleInterceptingPublishAsync_processPublish (handler : JwtSecurityTokenHandler)
    (arg : InterceptingPublishEventArgs) :
    (handleInterceptingPublishAsync handler arg).processPublish = arg.processPublish := by
  unfold handleInterceptingPublishAsync
  cases Guid.tryParse arg.clientId with
  | none => rfl
  | some lockId =>
    dsimp only
    cases intercept handler lockId arg.payload <;> rfl

theorem tryParse_senderClientId : Guid.tryParse senderClientId = none := by decide

/-- The sender id of the server is no Guid, so an injected message makes no call. -/
theorem injected_call (handler : JwtSecurityTokenHandler) (m : LockMessage) :
    (handleInterceptingPublishAsync handler (injected m)).call = none := by
  rw [handleInterceptingPublishAsync_call, show (injected m).clientId = senderClientId from rfl,
    tryParse_senderClientId, Option.bind_none]

end SmartLock
