import SmartLock.Cluster.FrontEnd

/-!
# Sends and deliveries

Every decision with a lock starts one send. `run_sentOnce`: in every state of every run the sends
that have not ended and those that have are together exactly the started ones, each once.
`routed` is the message that an event makes the broker deliver.
-/

namespace SmartLock

/-- The number of the decision behind a message of the server. -/
def Origin.decision? : Origin → Option ℕ
  | .client _ => none
  | .server n => some n

namespace Cluster

variable {handler : JwtSecurityTokenHandler} {c : Collation} {s s' : Cluster}

/-- The message that the `n`-th decision sends. -/
def sent (s : Cluster) (n : ℕ) : Option LockMessage :=
  s.silo.decisions[n]?.bind fun d => d.outcome.sent

/-- The send that an event ends. -/
def sendEnd : ClusterEvent → Option ℕ
  | .inject n => some n
  | .sendFault n => some n
  | _ => none

theorem sent_of_silo_eq (h : s'.silo = s.silo) (n : ℕ) : s'.sent n = s.sent n := by
  unfold sent
  rw [h]

/-- The message that an event of the silo sends. -/
def sending (s : Cluster) (e : SiloEvent) : Option LockMessage :=
  (s.silo.decided e).bind fun d => d.outcome.sent

theorem started_eq (e : SiloEvent) :
    s.started e = (s.sending e).map fun m => (s.silo.decisions.length, m) := by
  unfold started sending
  cases s.silo.decided e <;> rfl

theorem sent_length : s.sent s.silo.decisions.length = none := by
  unfold sent
  rw [List.getElem?_eq_none (Nat.le_refl _), Option.bind_none]

/-- An event of the silo sends for its own decision, which has the next number. -/
theorem sent_silo {e : SiloEvent} (hsilo : s.silo.step c e = some s'.silo) (n : ℕ) :
    s'.sent n = if n = s.silo.decisions.length then s.sending e else s.sent n := by
  unfold sent sending
  rw [Silo.step_decisions hsilo, List.getElem?_append]
  by_cases hlt : n < s.silo.decisions.length
  · rw [if_pos hlt, if_neg (by omega)]
  · rw [if_neg hlt]
    by_cases heq : n = s.silo.decisions.length
    · rw [if_pos heq, heq, Nat.sub_self]
      cases s.silo.decided e <;> rfl
    · have hone : (s.silo.decided e).toList.length ≤ 1 := by
        cases s.silo.decided e <;> simp
      rw [if_neg heq, List.getElem?_eq_none (by omega), List.getElem?_eq_none (by omega)]

/-- The sends in the outbox and the ended ones are the started ones, each once. -/
structure SentOnce (s : Cluster) (ended : List ℕ) : Prop where
  count : ∀ n, (s.outbox.map Prod.fst ++ ended).count n = (s.sent n).toList.length
  outbox : ∀ x ∈ s.outbox, s.sent x.1 = some x.2

theorem sentOnce_init (db : SmartLockDb) : SentOnce (init db) [] where
  count _ := rfl
  outbox _ h := by cases h

theorem SentOnce.nodup {ended : List ℕ} (h : SentOnce s ended) :
    (s.outbox.map Prod.fst ++ ended).Nodup := by
  rw [List.nodup_iff_count]
  intro n
  rw [h.count]
  cases s.sent n <;> simp

theorem count_sendEnded (n k : ℕ) : ((s.sendEnded n).map Prod.fst).count k =
    if k = n then 0 else (s.outbox.map Prod.fst).count k := by
  unfold sendEnded
  induction s.outbox with
  | nil => simp
  | cons x xs ih =>
    by_cases hx : x.1 = n
    · rw [List.filter_cons_of_neg (by simpa using hx), ih, List.map_cons, List.count_cons]
      by_cases hk : k = n
      · simp [hk]
      · have hne : x.1 ≠ k := fun e => hk (by rw [← e, hx])
        simp [hk, hne]
    · rw [List.filter_cons_of_pos (by simpa using hx), List.map_cons, List.map_cons,
        List.count_cons, List.count_cons, ih]
      by_cases hk : k = n
      · simp [hk, hx]
      · simp [hk]

theorem SentOnce.ends {ended : List ℕ} (h : SentOnce s ended) {n : ℕ} {m : LockMessage}
    (hn : (n, m) ∈ s.outbox) (hsilo : s'.silo = s.silo) (hout : s'.outbox = s.sendEnded n) :
    SentOnce s' (ended ++ [n]) := by
  constructor
  · intro k
    have hcount := h.count k
    rw [sent_of_silo_eq hsilo, ← hcount, hout, List.count_append, List.count_append,
      count_sendEnded, List.count_append, List.count_singleton]
    by_cases hk : k = n
    · subst hk
      have hpos : 0 < (s.outbox.map Prod.fst).count k :=
        List.count_pos_iff.mpr (List.mem_map_of_mem hn)
      rw [List.count_append, h.outbox _ hn, Option.toList_some, List.length_singleton] at hcount
      simp
      omega
    · have hne : ¬ n = k := fun e => hk e.symm
      simp [hk, hne]
  · intro x hx
    rw [hout] at hx
    rw [sent_of_silo_eq hsilo]
    exact h.outbox x (List.mem_of_mem_filter hx)

theorem SentOnce.silo {ended : List ℕ} (h : SentOnce s ended) {e : SiloEvent}
    (hsilo : s.silo.step c e = some s'.silo)
    (hout : s'.outbox = s.outbox ++ (s.started e).toList) : SentOnce s' ended := by
  rw [started_eq] at hout
  constructor
  · intro n
    have hcount := h.count n
    rw [List.count_append] at hcount
    rw [hout, sent_silo hsilo, List.map_append, List.count_append, List.count_append]
    by_cases hn : n = s.silo.decisions.length
    · subst hn
      rw [sent_length] at hcount
      rw [if_pos rfl]
      cases s.sending e with
      | none => simpa using hcount
      | some m =>
        simp at hcount
        simp [hcount]
    · have hne : ¬ s.silo.decisions.length = n := fun e => hn e.symm
      rw [if_neg hn]
      cases s.sending e <;> simp [hne] <;> omega
  · intro x hx
    rw [hout, List.mem_append] at hx
    rcases hx with hx | hx
    · rw [sent_silo hsilo, if_neg, h.outbox x hx]
      intro hlen
      have hnone := h.outbox x hx
      rw [hlen, sent_length] at hnone
      cases hnone
    · obtain ⟨m, hm, rfl⟩ := Option.map_eq_some_iff.mp (Option.mem_toList.mp hx)
      rw [sent_silo hsilo, if_pos rfl, hm]

theorem SentOnce.step {ended : List ℕ} (h : SentOnce s ended) {e : ClusterEvent}
    (hstep : s.step handler c e = some s') : SentOnce s' (ended ++ (sendEnd e).toList) := by
  have hidle : s'.silo = s.silo → s'.outbox = s.outbox → SentOnce s' (ended ++ []) := by
    intro hsilo hout
    rw [List.append_nil]
    constructor
    · intro n
      rw [hout, sent_of_silo_eq hsilo, h.count]
    · intro x hx
      rw [hout] at hx
      rw [sent_of_silo_eq hsilo, h.outbox x hx]
  cases e with
  | connect session => obtain ⟨-, rfl⟩ | rfl := connect_eq_some hstep <;> exact hidle rfl rfl
  | publish session topic payload =>
    obtain ⟨-, rfl⟩ := publish_eq_some hstep
    exact hidle rfl rfl
  | post id user request =>
    obtain rfl := post_eq_some hstep
    exact hidle rfl rfl
  | inject n =>
    obtain ⟨m, hm, rfl⟩ := inject_eq_some hstep
    exact h.ends (mem_outbox_of_pending hm) rfl rfl
  | sendFault n =>
    obtain ⟨m, hm, rfl⟩ := sendFault_eq_some hstep
    exact h.ends (mem_outbox_of_pending hm) rfl rfl
  | silo e =>
    obtain ⟨-, silo, hsilo, rfl⟩ := silo_eq_some hstep
    rw [show (sendEnd (.silo e)).toList = [] from rfl, List.append_nil]
    exact h.silo hsilo rfl

/-- **Every send ends at most once.** In every state the sends of the outbox and the sends that
the events of the run have ended are together one for each decision that sends. -/
theorem run_sentOnce {db : SmartLockDb} {es : List ClusterEvent}
    (h : (cluster handler c).run (init db) es = some s) : SentOnce s (es.filterMap sendEnd) :=
  Machine.run_trace (I := SentOnce) (fun _ _ _ _ hs hstep => hs.step hstep) (sentOnce_init db) h

/-! ## Deliveries -/

/-- The message that an event makes the broker deliver. -/
def routed (s : Cluster) : ClusterEvent → Option Delivery
  | .publish session topic payload => some ⟨topic, payload, .client session⟩
  | .inject n => (s.pending n).map fun m =>
      ⟨m.topic, Utf8.getBytes (serialize m.message), .server n⟩
  | _ => none

theorem step_delivered {e : ClusterEvent} (h : s.step handler c e = some s') :
    s'.delivered = s.delivered ++ (s.routed e).toList := by
  cases e with
  | connect session =>
    obtain ⟨-, rfl⟩ | rfl := connect_eq_some h <;> exact (List.append_nil _).symm
  | publish session topic payload =>
    obtain ⟨-, rfl⟩ := publish_eq_some h
    exact present_delivered rfl
  | post id user request =>
    obtain rfl := post_eq_some h
    exact (List.append_nil _).symm
  | inject n =>
    obtain ⟨m, hm, rfl⟩ := inject_eq_some h
    rw [present_delivered rfl, routed, hm]
    rfl
  | sendFault n =>
    obtain ⟨m, hm, rfl⟩ := sendFault_eq_some h
    exact (List.append_nil _).symm
  | silo e =>
    obtain ⟨-, silo, -, rfl⟩ := silo_eq_some h
    exact (List.append_nil _).symm

end Cluster

end SmartLock
