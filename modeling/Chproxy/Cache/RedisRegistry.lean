/-
The transaction registry on Redis (`cache/transaction_registry_redis.go`) beside the one in memory. Both
take the same calls at the same times; between the calls the cleaner of the registry in memory runs.
No command of Redis fails.
-/
import Chproxy.Cache.Registry

namespace Chproxy.Cache

open Utils

/-! ## The registry -/

/-- A value of Redis, and when it expires, if it does. -/
structure RedisEntry where
  value : Bytes
  expires : Option Int
  deriving DecidableEq, Repr

structure RedisTransactionRegistry where
  db : String → Option RedisEntry
  deadline : Int
  transactionEndedDeadline : Int

def toTransactionKey (key : String) : String := key ++ "-transaction"

def TransactionState.toByte : TransactionState → UInt8
  | .created => 0
  | .completed => 1
  | .failed => 2
  | .absent => 3

/-- The conversion of a byte to a `TransactionState`; only four bytes are one. -/
def TransactionState.ofByte? : UInt8 → Option TransactionState
  | 0 => some .created
  | 1 => some .completed
  | 2 => some .failed
  | 3 => some .absent
  | _ => none

namespace RedisTransactionRegistry

variable (r : RedisTransactionRegistry) (now : Int) (k : String)

/-- SET with an expiration; zero stands for none. -/
def set (key : String) (value : Bytes) (expiration : Int) : RedisTransactionRegistry :=
  { r with db := Function.update r.db key (some ⟨value, if expiration > 0 then some (now + expiration) else none⟩) }

/-- GET: nothing when the value has expired. -/
def get (key : String) : Option Bytes :=
  ((r.db key).filter fun e => e.expires.all (now ≤ ·)).map RedisEntry.value

def create : RedisTransactionRegistry :=
  r.set now (toTransactionKey k) [TransactionState.created.toByte] r.deadline

def updateTransactionState (value : Bytes) : RedisTransactionRegistry :=
  r.set now (toTransactionKey k) value r.transactionEndedDeadline

def complete : RedisTransactionRegistry := r.updateTransactionState now k [TransactionState.completed.toByte]

def fail (reason : Bytes) : RedisTransactionRegistry :=
  r.updateTransactionState now k (TransactionState.failed.toByte :: reason)

/-- `Status`; `none` for a state that is none of the four. -/
def status : Option TransactionStatus :=
  match r.get now (toTransactionKey k) with
  | none => some { state := .absent }
  | some [] => some { state := .absent }
  | some (b :: reason) =>
    (TransactionState.ofByte? b).map fun state =>
      ⟨state, if state = .failed ∧ 0 < reason.length then reason else []⟩

end RedisTransactionRegistry

/-! ## Histories -/

/-- A call on both registries. -/
inductive RegistryCall
  | create (k : String)
  | complete (k : String)
  | fail (k : String) (reason : Bytes)
  | status (k : String)
  deriving DecidableEq, Repr

/-- A call at a time, or a round of the cleaner. -/
inductive RegistryEvent
  | call (now : Int) (c : RegistryCall)
  | clean (now : Int)
  deriving DecidableEq, Repr

def RegistryEvent.time : RegistryEvent → Int
  | .call now _ => now
  | .clean now => now

structure Registries where
  memory : InMemoryTransactionRegistry
  redis : RedisTransactionRegistry

namespace Registries

/-- Both registries empty, with the same deadlines. -/
def empty (deadline endedDeadline : Int) : Registries :=
  ⟨⟨fun _ => none, deadline, endedDeadline⟩, ⟨fun _ => none, deadline, endedDeadline⟩⟩

def step (s : Registries) : RegistryEvent → Registries
  | .call now (.create k) => ⟨s.memory.create now k, s.redis.create now k⟩
  | .call now (.complete k) => ⟨s.memory.complete now k, s.redis.complete now k⟩
  | .call now (.fail k reason) => ⟨s.memory.fail now k reason, s.redis.fail now k reason⟩
  | .call _ (.status _) => s
  | .clean now => ⟨s.memory.clean now, s.redis⟩

/-- No record of either registry is past its deadline. -/
structure LiveAt (s : Registries) (now : Int) : Prop where
  memory : ∀ k e, s.memory.pendingEntries k = some e → now ≤ e.deadline
  redis : ∀ key e t, s.redis.db key = some e → e.expires = some t → now ≤ t

/-- No record reaches its deadline in the history. -/
def Live : Registries → List RegistryEvent → Prop
  | _, [] => True
  | s, e :: es => s.LiveAt e.time ∧ (s.step e).Live es

/-- The two registries answer a `Status` call alike. -/
def AgreeAt (s : Registries) : RegistryEvent → Prop
  | .call now (.status k) => s.redis.status now k = some (s.memory.status k)
  | _ => True

/-- They answer every `Status` call of the history alike. -/
def Agree : Registries → List RegistryEvent → Prop
  | _, [] => True
  | s, e :: es => s.AgreeAt e ∧ (s.step e).Agree es

end Registries

/-! ## What a history does to a key -/

/-- What the calls on a key amount to so far: none, a `Create`, an end, or a `Create` after an end. -/
inductive Phase
  | unused
  | opened
  | ended
  | reopened
  deriving DecidableEq, Repr

def Phase.create : Phase → Phase
  | .unused => .opened
  | .opened => .opened
  | .ended => .reopened
  | .reopened => .reopened

abbrev Phases := String → Phase

def Phases.step (p : Phases) : RegistryEvent → Phases
  | .call _ (.create k) => Function.update p k (p k).create
  | .call _ (.complete k) => Function.update p k .ended
  | .call _ (.fail k _) => Function.update p k .ended
  | _ => p

/-- The event asks for no key that was created again after its end. -/
def Phases.SettledAt (p : Phases) : RegistryEvent → Prop
  | .call _ (.status k) => p k ≠ .reopened
  | _ => True

/-- No `Status` call of the history asks for a key that was created again after its end. -/
def Phases.Settled : Phases → List RegistryEvent → Prop
  | _, [] => True
  | p, e :: es => p.SettledAt e ∧ Phases.Settled (p.step e) es

/-! ## The two registries side by side -/

/-- What the registries hold for a key in each phase. -/
def Phase.Holds (entry : Option PendingEntry) (value : Option Bytes) : Phase → Prop
  | .unused => entry = none ∧ value = none
  | .opened => ∃ d, entry = some ⟨d, .created, []⟩ ∧ value = some [TransactionState.created.toByte]
  | .ended => ∃ d, (entry = some ⟨d, .completed, []⟩ ∧ value = some [TransactionState.completed.toByte]) ∨
      ∃ reason, entry = some ⟨d, .failed, reason⟩ ∧ value = some (TransactionState.failed.toByte :: reason)
  | .reopened => ∃ d state reason, (state = .completed ∨ state = .failed) ∧ entry = some ⟨d, state, reason⟩ ∧
      value = some [TransactionState.created.toByte]

/-- The registries and the phases of the keys belong together. -/
def Registries.Matches (s : Registries) (p : Phases) : Prop :=
  ∀ k, (p k).Holds (s.memory.pendingEntries k) ((s.redis.db (toTransactionKey k)).map RedisEntry.value)

theorem toTransactionKey_inj {j k : String} (h : toTransactionKey j = toTransactionKey k) : j = k := by
  simpa [toTransactionKey, String.ext_iff] using h

namespace RedisTransactionRegistry

variable {r : RedisTransactionRegistry} {now : Int} {j k : String}

theorem set_self (value : Bytes) (expiration : Int) :
    ((r.set now (toTransactionKey k) value expiration).db (toTransactionKey k)).map RedisEntry.value = some value := by
  simp [set]

theorem set_of_ne (value : Bytes) (expiration : Int) (h : j ≠ k) :
    (r.set now (toTransactionKey k) value expiration).db (toTransactionKey j) = r.db (toTransactionKey j) := by
  simp [set, Function.update_of_ne (mt toTransactionKey_inj h)]

/-- Before its deadline a value is found. -/
theorem get_of_live (h : ∀ e t, r.db k = some e → e.expires = some t → now ≤ t) :
    r.get now k = (r.db k).map RedisEntry.value := by
  cases he : r.db k with
  | none => simp [get, he]
  | some e =>
    cases ht : e.expires with
    | none => simp [get, he, ht]
    | some t => simp [get, he, ht, h e t he ht]

end RedisTransactionRegistry

namespace Registries

variable {s : Registries} {p : Phases}

/-- An operation that leaves the other keys alone keeps the match when it does for its own key. -/
theorem Matches.update {s' : Registries} {k : String} {ph : Phase} (h : s.Matches p)
    (hself : ph.Holds (s'.memory.pendingEntries k) ((s'.redis.db (toTransactionKey k)).map RedisEntry.value))
    (hmemory : ∀ j, j ≠ k → s'.memory.pendingEntries j = s.memory.pendingEntries j)
    (hredis : ∀ j, j ≠ k → s'.redis.db (toTransactionKey j) = s.redis.db (toTransactionKey j)) :
    s'.Matches (Function.update p k ph) := by
  intro j
  by_cases hj : j = k
  · subst hj
    rw [Function.update_self]
    exact hself
  · rw [Function.update_of_ne hj, hmemory j hj, hredis j hj]
    exact h j

theorem Matches.create (h : s.Matches p) (now : Int) (k : String) :
    (s.step (.call now (.create k))).Matches (Function.update p k (p k).create) := by
  refine h.update ?_ (fun j hj => InMemoryTransactionRegistry.create_of_ne hj)
    fun j hj => RedisTransactionRegistry.set_of_ne _ _ hj
  have hvalue : ((s.redis.create now k).db (toTransactionKey k)).map RedisEntry.value =
      some [TransactionState.created.toByte] := RedisTransactionRegistry.set_self _ _
  show (p k).create.Holds ((s.memory.create now k).pendingEntries k)
    (((s.redis.create now k).db (toTransactionKey k)).map RedisEntry.value)
  rw [hvalue]
  have hk := h k
  -- the record in memory stays when there is one; the value of Redis was overwritten
  cases hp : p k with
  | unused =>
    rw [hp] at hk
    exact ⟨_, InMemoryTransactionRegistry.create_of_none hk.1, rfl⟩
  | opened =>
    rw [hp] at hk
    obtain ⟨d, hentry, _⟩ := hk
    rw [InMemoryTransactionRegistry.create_of_some hentry]
    exact ⟨d, hentry, rfl⟩
  | ended =>
    rw [hp] at hk
    obtain ⟨d, ⟨hentry, _⟩ | ⟨reason, hentry, _⟩⟩ := hk
    · rw [InMemoryTransactionRegistry.create_of_some hentry]
      exact ⟨d, .completed, [], .inl rfl, hentry, rfl⟩
    · rw [InMemoryTransactionRegistry.create_of_some hentry]
      exact ⟨d, .failed, reason, .inr rfl, hentry, rfl⟩
  | reopened =>
    rw [hp] at hk
    obtain ⟨d, state, reason, hstate, hentry, _⟩ := hk
    rw [InMemoryTransactionRegistry.create_of_some hentry]
    exact ⟨d, state, reason, hstate, hentry, rfl⟩

theorem Matches.complete (h : s.Matches p) (now : Int) (k : String) :
    (s.step (.call now (.complete k))).Matches (Function.update p k .ended) := by
  refine h.update ?_ (fun j hj => InMemoryTransactionRegistry.insert_of_ne _ hj)
    fun j hj => RedisTransactionRegistry.set_of_ne _ _ hj
  exact ⟨_, .inl ⟨InMemoryTransactionRegistry.insert_self _, RedisTransactionRegistry.set_self _ _⟩⟩

theorem Matches.fail (h : s.Matches p) (now : Int) (k : String) (reason : Bytes) :
    (s.step (.call now (.fail k reason))).Matches (Function.update p k .ended) := by
  refine h.update ?_ (fun j hj => InMemoryTransactionRegistry.insert_of_ne _ hj)
    fun j hj => RedisTransactionRegistry.set_of_ne _ _ hj
  exact ⟨_, .inr ⟨reason, InMemoryTransactionRegistry.insert_self _, RedisTransactionRegistry.set_self _ _⟩⟩

theorem Matches.step (h : s.Matches p) {e : RegistryEvent} (hlive : s.LiveAt e.time) :
    (s.step e).Matches (p.step e) := by
  cases e with
  | clean now =>
    intro k
    have hkeep : (s.memory.clean now).pendingEntries k = s.memory.pendingEntries k :=
      InMemoryTransactionRegistry.clean_of_le fun e he => hlive.memory k e he
    show (p k).Holds ((s.memory.clean now).pendingEntries k) _
    rw [hkeep]
    exact h k
  | call now c =>
    cases c with
    | create k => exact h.create now k
    | complete k => exact h.complete now k
    | fail k reason => exact h.fail now k reason
    | status k => exact h

/-- The registries answer alike for a key unless it was created again after its end. -/
theorem Matches.agreeAt_iff (h : s.Matches p) {e : RegistryEvent} (hlive : s.LiveAt e.time) :
    s.AgreeAt e ↔ p.SettledAt e := by
  rcases e with ⟨now, k | k | ⟨k, reason⟩ | k⟩ | now
  · exact Iff.rfl
  · exact Iff.rfl
  · exact Iff.rfl
  · -- only `Status` answers: the two registries are compared phase by phase
    have hk := h k
    have hget : s.redis.get now (toTransactionKey k) = (s.redis.db (toTransactionKey k)).map RedisEntry.value :=
      RedisTransactionRegistry.get_of_live fun e t => hlive.redis (toTransactionKey k) e t
    show s.redis.status now k = some (s.memory.status k) ↔ p k ≠ .reopened
    unfold RedisTransactionRegistry.status InMemoryTransactionRegistry.status
    rw [hget]
    cases hp : p k with
    | unused =>
      rw [hp] at hk
      obtain ⟨hentry, hvalue⟩ := hk
      simp [hentry, hvalue]
    | opened =>
      rw [hp] at hk
      obtain ⟨d, hentry, hvalue⟩ := hk
      simp [hentry, hvalue, TransactionState.toByte, TransactionState.ofByte?]
    | ended =>
      rw [hp] at hk
      obtain ⟨d, ⟨hentry, hvalue⟩ | ⟨reason, hentry, hvalue⟩⟩ := hk
      · simp [hentry, hvalue, TransactionState.toByte, TransactionState.ofByte?]
      · cases reason <;> simp [hentry, hvalue, TransactionState.toByte, TransactionState.ofByte?]
    -- the in-memory entry was kept, the key in Redis was set anew
    | reopened =>
      rw [hp] at hk
      obtain ⟨d, state, reason, rfl | rfl, hentry, hvalue⟩ := hk <;>
        simp [hentry, hvalue, TransactionState.toByte, TransactionState.ofByte?]
  · exact Iff.rfl

theorem Matches.agree_iff : ∀ {events : List RegistryEvent} {s : Registries} {p : Phases}, s.Matches p →
    s.Live events → (s.Agree events ↔ p.Settled events)
  | [], _, _, _, _ => Iff.rfl
  | _ :: _, _, _, h, hlive =>
    and_congr (h.agreeAt_iff hlive.1) (agree_iff (h.step hlive.1) hlive.2)

end Registries

/-- While no record reaches its deadline, the two registries answer every `Status` call of a history alike
exactly when none asks for a key that was created again after its `Complete` or `Fail`. -/
theorem registries_agree_iff (deadline endedDeadline : Int) {events : List RegistryEvent}
    (h : (Registries.empty deadline endedDeadline).Live events) :
    (Registries.empty deadline endedDeadline).Agree events ↔ Phases.Settled (fun _ => .unused) events :=
  Registries.Matches.agree_iff (fun _ => ⟨rfl, rfl⟩) h

/-! ## Histories shorter than the deadlines -/

namespace Registries

variable {s : Registries}

theorem LiveAt.mono {now now' : Int} (h : s.LiveAt now') (hle : now ≤ now') : s.LiveAt now :=
  ⟨fun k e he => hle.trans (h.memory k e he), fun key e t he ht => hle.trans (h.redis key e t he ht)⟩

/-- Records made by an operation, or by one before it. -/
theorem insert_cases {i : InMemoryTransactionRegistry} {j k : String} {x e : PendingEntry}
    (h : (i.insert k e).pendingEntries j = some x) : x = e ∨ i.pendingEntries j = some x := by
  by_cases hj : j = k
  · subst hj
    rw [InMemoryTransactionRegistry.insert_self] at h
    exact .inl (Option.some.inj h).symm
  · rw [InMemoryTransactionRegistry.insert_of_ne e hj] at h
    exact .inr h

theorem set_cases {r : RedisTransactionRegistry} {now expiration : Int} {key key' : String} {value : Bytes}
    {x : RedisEntry} {t : Int} (h : (r.set now key value expiration).db key' = some x) (ht : x.expires = some t) :
    t = now + expiration ∨ r.db key' = some x := by
  unfold RedisTransactionRegistry.set at h
  dsimp only at h
  by_cases hk : key' = key
  · subst hk
    rw [Function.update_self] at h
    cases h
    split at ht
    · exact .inl (Option.some.inj ht).symm
    · cases ht
  · rw [Function.update_of_ne hk] at h
    exact .inr h

theorem insert_live {i : InMemoryTransactionRegistry} {b : Int} {j k : String} {x e : PendingEntry}
    (h : ∀ j x, i.pendingEntries j = some x → b ≤ x.deadline) (he : b ≤ e.deadline)
    (hx : (i.insert k e).pendingEntries j = some x) : b ≤ x.deadline := by
  rcases insert_cases hx with rfl | hold
  · exact he
  · exact h j x hold

theorem set_live {r : RedisTransactionRegistry} {b now expiration t : Int} {key key' : String} {value : Bytes}
    {x : RedisEntry} (h : ∀ key x t, r.db key = some x → x.expires = some t → b ≤ t) (hle : b ≤ now + expiration)
    (hx : (r.set now key value expiration).db key' = some x) (ht : x.expires = some t) : b ≤ t := by
  rcases set_cases hx ht with rfl | hold
  · exact hle
  · exact h key' x t hold ht

/-- Both registries were made with these deadlines. -/
def MadeWith (s : Registries) (deadline endedDeadline : Int) : Prop :=
  (s.memory.deadline = deadline ∧ s.memory.transactionEndedDeadline = endedDeadline) ∧
    s.redis.deadline = deadline ∧ s.redis.transactionEndedDeadline = endedDeadline

theorem MadeWith.step {deadline endedDeadline : Int} (h : s.MadeWith deadline endedDeadline) (e : RegistryEvent) :
    (s.step e).MadeWith deadline endedDeadline := by
  rcases e with ⟨now, k | k | ⟨k, reason⟩ | k⟩ | now
  · refine ⟨?_, h.2⟩
    show (s.memory.create now k).deadline = _ ∧ (s.memory.create now k).transactionEndedDeadline = _
    unfold InMemoryTransactionRegistry.create
    split <;> exact h.1
  all_goals exact h

/-- A record lives for a deadline from the time it is made. -/
theorem LiveAt.step {b deadline endedDeadline : Int} {e : RegistryEvent} (h : s.LiveAt b)
    (hs : s.MadeWith deadline endedDeadline) (hd : b ≤ e.time + deadline) (hended : b ≤ e.time + endedDeadline) :
    (s.step e).LiveAt b := by
  obtain ⟨⟨hmd, hme⟩, hrd, hre⟩ := hs
  rcases e with ⟨now, k | k | ⟨k, reason⟩ | k⟩ | now
  · refine ⟨fun j x hx => ?_, fun key x t => set_live h.redis (by rw [hrd]; exact hd)⟩
    change (s.memory.create now k).pendingEntries j = some x at hx
    unfold InMemoryTransactionRegistry.create at hx
    split at hx
    · exact h.memory j x hx
    · exact insert_live h.memory (show b ≤ now + s.memory.deadline by rw [hmd]; exact hd) hx
  · refine ⟨fun j x hx => ?_, fun key x t => set_live h.redis (by rw [hre]; exact hended)⟩
    exact insert_live h.memory (show b ≤ now + s.memory.transactionEndedDeadline by rw [hme]; exact hended) hx
  · refine ⟨fun j x hx => ?_, fun key x t => set_live h.redis (by rw [hre]; exact hended)⟩
    exact insert_live h.memory (show b ≤ now + s.memory.transactionEndedDeadline by rw [hme]; exact hended) hx
  · exact h
  · refine ⟨fun j x hx => ?_, h.redis⟩
    exact h.memory j x (Option.filter_eq_some_iff.1 hx).1

/-- In a history no longer than either deadline no record reaches its own. -/
theorem live_of_short {t d deadline endedDeadline : Int} (hd : d ≤ deadline) (hended : d ≤ endedDeadline) :
    ∀ {events : List RegistryEvent} {s : Registries}, s.MadeWith deadline endedDeadline → s.LiveAt (t + d) →
      (∀ e ∈ events, t ≤ e.time ∧ e.time ≤ t + d) → s.Live events
  | [], _, _, _, _ => trivial
  | e :: events, s, hs, hlive, htimes => by
    obtain ⟨hlo, hhi⟩ := htimes e List.mem_cons_self
    refine ⟨hlive.mono hhi, live_of_short hd hended (hs.step e) (hlive.step hs ?_ ?_) fun x hx => ?_⟩
    · omega
    · omega
    · exact htimes x (List.mem_cons_of_mem _ hx)

theorem empty_live {t d deadline endedDeadline : Int} (hd : d ≤ deadline) (hended : d ≤ endedDeadline)
    {events : List RegistryEvent} (h : ∀ e ∈ events, t ≤ e.time ∧ e.time ≤ t + d) :
    (empty deadline endedDeadline).Live events :=
  live_of_short hd hended ⟨⟨rfl, rfl⟩, rfl, rfl⟩ ⟨nofun, nofun⟩ h

end Registries

theorem registries_agree_failed :
    (Registries.empty 60 10).Agree
      [.call 0 (.create "k"), .clean 1, .call 2 (.fail "k" [110, 111]), .call 3 (.status "k")] :=
  (registries_agree_iff 60 10 (Registries.empty_live (t := 0) (d := 10) (by decide) (by decide) (by decide))).2
    ⟨trivial, trivial, trivial, (by decide : Phase.ended ≠ .reopened), trivial⟩

/-- A key that is created again right after its completion: the registry in memory says it is completed,
the one on Redis that it is pending. -/
theorem registries_differ_on_recreate :
    let s := Registries.empty 60 10
    let events : List RegistryEvent :=
      [.call 0 (.create "k"), .call 1 (.complete "k"), .call 2 (.create "k"), .call 3 (.status "k")]
    let before := ((s.step (.call 0 (.create "k"))).step (.call 1 (.complete "k"))).step (.call 2 (.create "k"))
    s.Live events ∧ ¬s.Agree events ∧
      before.memory.status "k" = ⟨.completed, []⟩ ∧ before.redis.status 3 "k" = some ⟨.created, []⟩ := by
  intro s events before
  have hmemory : before.memory.status "k" = ⟨.completed, []⟩ := by decide
  have hredis : before.redis.status 3 "k" = some ⟨.created, []⟩ := by decide
  refine ⟨Registries.empty_live (t := 0) (d := 10) (by decide) (by decide) (by decide), ?_, hmemory, hredis⟩
  rintro ⟨_, _, _, hagree, _⟩
  change before.redis.status 3 "k" = some (before.memory.status "k") at hagree
  rw [hmemory, hredis] at hagree
  exact absurd hagree (by decide)

end Chproxy.Cache
