/-
`executeWithRetry` (`proxy.go`) with what it does to the cluster and to the request: which hosts are tried, with
which address and body, and how a host that fails is left. `Proxy.Retry` has the same loop as seen by the writers.
Other requests and heartbeats work on the cluster meanwhile.
-/
import Chproxy.Proxy.Retry
import Chproxy.Routing.Sticky

namespace Chproxy.Proxy.Failover

open Utils Routing

/-! ## The request -/

structure Url where
  scheme : String
  host : String
  deriving DecidableEq, Repr

/-- The address of a request, and what `io.ReadAll` gets from its body. -/
structure Request where
  url : Url
  body : Except String Bytes

def readAndRestoreRequestBody (req : Request) : Except String (Bytes × Request) := do
  let body ← req.body
  .ok (body, { req with body := .ok body })

/-- The address of a host. -/
def url (h : Target) : Url := ⟨h.node.scheme, h.node.host⟩

/-! ## One round -/

/-- What happens in a round: the attempt, what it leaves of the body and the state of the context after it; what
others do to the cluster until `Penalize`, until `SetIsActive` and until `nextHost.IsActive()`; what `getHost`
reads; and the text of the error sent when there is no retry. -/
structure Turn where
  attempt : Attempt
  unread : Except String Bytes
  ctxErr : Option CtxErr
  serving : Live → Live
  penalizing : Live → Live
  choosing : Live → Live
  reads : Reads
  cannotReach : Bytes

/-- No host becomes active. -/
def NeverReactivates (f : Live → Live) : Prop := ∀ s h, (f s).flags h = true → s.flags h = true

/-- Nobody makes a host active during the round. -/
structure Turn.Calm (t : Turn) : Prop where
  serving : NeverReactivates t.serving
  penalizing : NeverReactivates t.penalizing
  choosing : NeverReactivates t.choosing

/-- The loop before a round. `active` is whether `s.host` was active when it was chosen. -/
structure State where
  live : Live
  target : Target
  active : Bool
  req : Request
  writers : Writers
  numRetry : Int

/-- How `executeWithRetry` ends. -/
inductive Ending
  | returned (err : Option CtxErr)
  | unreadBody (err : String)
  | panic
  deriving DecidableEq, Repr

inductive Next
  | stop (live : Live) (writers : Writers) (ending : Ending)
  | retry (s : State)

/-- The connection is counted for the new host instead of the current one. -/
def moveConnection (live : Live) (currentHost nextHost : HostId) : Live :=
  if currentHost ≠ nextHost then
    (live.update currentHost .decrementConnections).update nextHost .incrementConnections
  else live

section Loop

variable (c : Cluster) (maxRetry : Int) (sessionId : String) (body : Bytes)

/-- The body of the loop: the hosts penalized, and how it goes on. -/
def turn (s : State) (t : Turn) : List HostId × Next :=
  let w := s.writers.serve t.attempt
  let live := t.serving s.live
  let req := { s.req with body := t.unread }
  -- restore req.Body after it's consumed by 'rp'
  let req := { req with body := .ok body }
  match t.ctxErr with
  | some e => ([], .stop live w (.returned (some e)))
  | none =>
    let w := w.sync
    if w.code = statusBadGateway then
      let live := live.update s.target.id .penalize
      let live := (t.penalizing live).update s.target.id (·.setIsActive false)
      let live := t.choosing live
      match c.getHostReading t.reads with
      | .error _ => ([s.target.id], .stop live w .panic)
      | .ok nextHost =>
        if s.numRetry < maxRetry ∧ live.flags nextHost.id = true ∧ sessionId = "" then
          ([s.target.id], .retry
            { live := moveConnection live s.target.id nextHost.id, target := nextHost, active := live.flags nextHost.id
              req := { req with url := url nextHost }, writers := w, numRetry := s.numRetry + 1 })
        else
          ([s.target.id], .stop live { w with srw := w.srw.respondWith t.cannotReach w.srw.code } (.returned none))
    else ([], .stop live w (.returned none))

/-- An attempt: the host, whether it was active when it was chosen, the request that was sent, what became of it
and the context after it. -/
structure Sent where
  target : Target
  active : Bool
  req : Request
  attempt : Attempt
  ctxErr : Option CtxErr

/-- A whole call: the attempts, the calls of `Penalize`, and what is left. -/
structure Execution where
  sent : List Sent
  penalized : List HostId
  live : Live
  writers : Writers
  ending : Ending

/-- The loop, with as many rounds as it needs; `none` when they do not suffice. -/
def loop : List Turn → State → Option Execution
  | [], _ => none
  | t :: turns, s =>
    let a : Sent := ⟨s.target, s.active, s.req, t.attempt, t.ctxErr⟩
    match turn c maxRetry sessionId body s t with
    | (p, .stop live w e) => some ⟨[a], p, live, w, e⟩
    | (p, .retry s') =>
      (loop turns s').map fun out => { out with sent := a :: out.sent, penalized := p ++ out.penalized }

end Loop

/-- `executeWithRetry` for the scope of a session with the given host. -/
def executeWithRetry (c : Cluster) (maxRetry : Int) (sessionId : String) (turns : List Turn) (live : Live)
    (host : Target) (req : Request) (w : Writers) : Option Execution :=
  match readAndRestoreRequestBody req with
  | .error e => some ⟨[], [], live, w, .unreadBody e⟩
  | .ok (body, req) => loop c maxRetry sessionId body turns ⟨live, host, live.flags host.id, req, w, 0⟩

/-! ## What a round can do -/

section Rounds

variable {c : Cluster} {maxRetry : Int} {sessionId : String} {body : Bytes} {s : State} {t : Turn}

theorem NeverReactivates.comp {f g : Live → Live} (hf : NeverReactivates f) (hg : NeverReactivates g) :
    NeverReactivates fun s => f (g s) := fun s h ha => hg s h (hf _ h ha)

/-- The changes that leave the flags alone. -/
theorem neverReactivates_of_flags {f : Live → Live} (hf : ∀ s, (f s).flags = s.flags) : NeverReactivates f :=
  fun s h ha => by rwa [hf s] at ha

theorem neverReactivates_setInactive (h : HostId) :
    NeverReactivates fun s => s.update h (·.setIsActive false) := by
  intro s h' ha
  by_cases heq : h' = h
  · rw [heq, Live.flags, Live.node_update_self] at ha
    cases ha
  · rwa [Live.flags, Live.node_update_of_ne s heq] at ha

/-- The attempt failed, and the request was still wanted. -/
def Failed (a : Attempt) (ctxErr : Option CtxErr) : Prop := a.status = statusBadGateway ∧ ctxErr = none

instance (a : Attempt) (ctxErr : Option CtxErr) : Decidable (Failed a ctxErr) := by
  unfold Failed
  infer_instance

/-- The cluster once a failure has been dealt with. -/
def afterFailure (t : Turn) (live : Live) (h : HostId) : Live :=
  t.choosing ((t.penalizing ((t.serving live).update h .penalize)).update h (·.setIsActive false))

/-- The ways in which a round can go. -/
inductive Goes (c : Cluster) (maxRetry : Int) (sessionId : String) (body : Bytes) (s : State) (t : Turn) :
    List HostId × Next → Prop
  | canceled {e : CtxErr} (hctx : t.ctxErr = some e) : Goes c maxRetry sessionId body s t
      ([], .stop (t.serving s.live) (s.writers.serve t.attempt) (.returned (some e)))
  | served (hctx : t.ctxErr = none) (hgood : t.attempt.status ≠ statusBadGateway) : Goes c maxRetry sessionId body s t
      ([], .stop (t.serving s.live) (s.writers.serve t.attempt).sync (.returned none))
  | panics {e : Failure} (hfailed : Failed t.attempt t.ctxErr) (hhost : c.getHostReading t.reads = .error e) :
      Goes c maxRetry sessionId body s t
        ([s.target.id], .stop (afterFailure t s.live s.target.id) (s.writers.serve t.attempt).sync .panic)
  | refused {nextHost : Target} (hfailed : Failed t.attempt t.ctxErr) (hhost : c.getHostReading t.reads = .ok nextHost)
      (hretry : ¬(s.numRetry < maxRetry ∧ (afterFailure t s.live s.target.id).flags nextHost.id = true ∧
        sessionId = "")) :
      Goes c maxRetry sessionId body s t
        ([s.target.id], .stop (afterFailure t s.live s.target.id)
          { (s.writers.serve t.attempt).sync with
            srw := (s.writers.serve t.attempt).sync.srw.respondWith t.cannotReach
              (s.writers.serve t.attempt).sync.srw.code }
          (.returned none))
  | retried {nextHost : Target} (hfailed : Failed t.attempt t.ctxErr) (hhost : c.getHostReading t.reads = .ok nextHost)
      (hretry : s.numRetry < maxRetry ∧ (afterFailure t s.live s.target.id).flags nextHost.id = true ∧ sessionId = "") :
      Goes c maxRetry sessionId body s t
        ([s.target.id], .retry
          { live := moveConnection (afterFailure t s.live s.target.id) s.target.id nextHost.id
            target := nextHost
            active := (afterFailure t s.live s.target.id).flags nextHost.id
            req := ⟨url nextHost, .ok body⟩
            writers := (s.writers.serve t.attempt).sync
            numRetry := s.numRetry + 1 })

theorem code_sync (s : State) (t : Turn) : ((s.writers.serve t.attempt).sync).code = t.attempt.status :=
  Writers.code_attempt t.attempt.status_ne_zero

theorem turn_goes (c : Cluster) (maxRetry : Int) (sessionId : String) (body : Bytes) (s : State) (t : Turn) :
    Goes c maxRetry sessionId body s t (turn c maxRetry sessionId body s t) := by
  unfold turn
  cases hctx : t.ctxErr with
  | some e => exact .canceled hctx
  | none =>
    simp only [code_sync]
    by_cases hbad : t.attempt.status = statusBadGateway
    · rw [if_pos hbad]
      cases hhost : c.getHostReading t.reads with
      | error e => exact .panics ⟨hbad, hctx⟩ hhost
      | ok nextHost =>
        simp only
        split
        · rename_i hretry
          exact .retried ⟨hbad, hctx⟩ hhost hretry
        · rename_i hretry
          exact .refused ⟨hbad, hctx⟩ hhost hretry
    · rw [if_neg hbad]
      exact .served hctx hbad

/-- No host has become active, and the one that failed is not. -/
theorem flags_afterFailure (ht : t.Calm) (live : Live) (h : HostId) :
    (∀ h', (afterFailure t live h).flags h' = true → live.flags h' = true) ∧
    (afterFailure t live h).flags h = false := by
  have hpenalize : NeverReactivates fun s => s.update h .penalize :=
    neverReactivates_of_flags fun s => s.flags_update h NodeState.active_penalize
  have hset := (neverReactivates_setInactive h).comp (ht.penalizing.comp (hpenalize.comp ht.serving))
  refine ⟨ht.choosing.comp hset live, Bool.eq_false_iff.2 fun ha => ?_⟩
  have hbefore := ht.choosing _ h ha
  rw [Live.flags, Live.node_update_self] at hbefore
  cases hbefore

theorem flags_moveConnection (live : Live) (currentHost nextHost : HostId) :
    (moveConnection live currentHost nextHost).flags = live.flags := by
  unfold moveConnection
  split
  · rw [Live.flags_update _ _ NodeState.active_incrementConnections,
      Live.flags_update _ _ NodeState.active_decrementConnections]
  · rfl

/-- A round that is the last one: the host is penalized and inactive if it failed. -/
structure Stops (s : State) (t : Turn) (p : List HostId) (live : Live) : Prop where
  penalized : p = if Failed t.attempt t.ctxErr then [s.target.id] else []
  flags : ∀ h, live.flags h = true → s.live.flags h = true
  inactive : Failed t.attempt t.ctxErr → live.flags s.target.id = false

/-- A round that is not: the host failed, is penalized and inactive, and another one, which was active all the time,
gets the request as it was. -/
structure Retries (maxRetry : Int) (sessionId : String) (body : Bytes) (s : State) (t : Turn) (p : List HostId)
    (s' : State) : Prop where
  failed : Failed t.attempt t.ctxErr
  penalized : p = [s.target.id]
  allowed : s.numRetry < maxRetry ∧ sessionId = ""
  numRetry : s'.numRetry = s.numRetry + 1
  flags : ∀ h, s'.live.flags h = true → s.live.flags h = true
  inactive : s'.live.flags s.target.id = false
  chosen : s'.live.flags s'.target.id = true ∧ s'.active = true
  req : s'.req = ⟨url s'.target, .ok body⟩

theorem stops_of_failed (ht : t.Calm) (h : Failed t.attempt t.ctxErr) :
    Stops s t [s.target.id] (afterFailure t s.live s.target.id) := by
  obtain ⟨hflags, hinactive⟩ := flags_afterFailure ht s.live s.target.id
  exact ⟨(if_pos h).symm, hflags, fun _ => hinactive⟩

theorem stops_of_not_failed (ht : t.Calm) (h : ¬Failed t.attempt t.ctxErr) : Stops s t [] (t.serving s.live) :=
  ⟨(if_neg h).symm, ht.serving s.live, fun hfailed => absurd hfailed h⟩

/-- Everything a round can do while nobody makes a host active. -/
theorem turn_cases (c : Cluster) (maxRetry : Int) (sessionId : String) (body : Bytes) (s : State) (ht : t.Calm) :
    (∃ p live w e, turn c maxRetry sessionId body s t = (p, .stop live w e) ∧ Stops s t p live) ∨
    (∃ p s', turn c maxRetry sessionId body s t = (p, .retry s') ∧ Retries maxRetry sessionId body s t p s') := by
  have hgoes := turn_goes c maxRetry sessionId body s t
  generalize turn c maxRetry sessionId body s t = out at hgoes
  cases hgoes with
  | canceled hctx =>
    refine .inl ⟨_, _, _, _, rfl, stops_of_not_failed ht fun h => ?_⟩
    rw [Failed, hctx] at h
    cases h.2
  | served hctx hgood => exact .inl ⟨_, _, _, _, rfl, stops_of_not_failed ht fun h => hgood h.1⟩
  | panics hfailed => exact .inl ⟨_, _, _, _, rfl, stops_of_failed ht hfailed⟩
  | refused hfailed => exact .inl ⟨_, _, _, _, rfl, stops_of_failed ht hfailed⟩
  | retried hfailed hhost hretry =>
    -- only here does the loop go on, and the host that failed is inactive for it
    obtain ⟨hflags, hinactive⟩ := flags_afterFailure ht s.live s.target.id
    obtain ⟨hlt, hactive, hsession⟩ := hretry
    refine .inr ⟨_, _, rfl, hfailed, rfl, ⟨hlt, hsession⟩, rfl, ?_, ?_, ⟨?_, hactive⟩, rfl⟩
    · rw [flags_moveConnection]
      exact hflags
    · rw [flags_moveConnection]
      exact hinactive
    · rw [flags_moveConnection]
      exact hactive

/-! ## The whole loop -/

/-- The attempts of a call. -/
structure Sound (maxRetry : Int) (sessionId : String) (body : Bytes) (s : State) (out : Execution) : Prop where
  first : ∃ a rest, out.sent = a :: rest ∧ a.target = s.target ∧ a.active = s.active ∧ a.req = s.req
  bounded : out.sent.length ≤ (maxRetry - s.numRetry).toNat + 1
  session : sessionId ≠ "" → out.sent.length = 1
  fresh : ∀ a ∈ out.sent.tail, s.live.flags a.target.id = true ∧ a.target.id ≠ s.target.id
  distinct : (out.sent.map fun a => a.target.id).Nodup
  later : ∀ a ∈ out.sent.tail, a.active = true ∧ a.req = ⟨url a.target, .ok body⟩
  flags : ∀ h, out.live.flags h = true → s.live.flags h = true
  inactive : ∀ a ∈ out.sent, Failed a.attempt a.ctxErr → out.live.flags a.target.id = false
  penalized : out.penalized = (out.sent.filter fun a => Failed a.attempt a.ctxErr).map fun a => a.target.id

theorem sound_stop {p : List HostId} {live : Live} (h : Stops s t p live) (w : Writers) (e : Ending) :
    Sound maxRetry sessionId body s ⟨[⟨s.target, s.active, s.req, t.attempt, t.ctxErr⟩], p, live, w, e⟩ where
  first := ⟨_, _, rfl, rfl, rfl, rfl⟩
  bounded := Nat.succ_le_succ (Nat.zero_le _)
  session := fun _ => rfl
  fresh := nofun
  distinct := List.nodup_singleton _
  later := nofun
  flags := h.flags
  inactive := List.forall_mem_singleton.2 h.inactive
  penalized := by
    rw [h.penalized, List.filter_cons]
    split <;> simp_all

/-- All hosts tried were active before, if the first one was. -/
theorem Sound.active {out : Execution} (h : Sound maxRetry sessionId body s out)
    (hs : s.live.flags s.target.id = true) : ∀ a ∈ out.sent, s.live.flags a.target.id = true := by
  have hfresh := h.fresh
  obtain ⟨b, rest, hsent, htarget, -⟩ := h.first
  rw [hsent] at hfresh ⊢
  intro a ha
  rcases List.mem_cons.1 ha with rfl | ha
  · rw [htarget]
    exact hs
  · exact (hfresh a ha).1

/-- All attempts get the request as it was, if the first one does. -/
theorem Sound.requests {out : Execution} (h : Sound maxRetry sessionId body s out) (hactive : s.active = true)
    (hreq : s.req = ⟨url s.target, .ok body⟩) : ∀ a ∈ out.sent, a.active = true ∧ a.req = ⟨url a.target, .ok body⟩ := by
  have hlater := h.later
  obtain ⟨b, rest, hsent, htarget, hba, hbr⟩ := h.first
  rw [hsent] at hlater ⊢
  intro a ha
  rcases List.mem_cons.1 ha with rfl | ha
  · exact ⟨hba.trans hactive, by rw [hbr, htarget, hreq]⟩
  · exact hlater a ha

theorem sound_retry {p : List HostId} {s' : State} {out : Execution} (h : Retries maxRetry sessionId body s t p s')
    (hout : Sound maxRetry sessionId body s' out) :
    Sound maxRetry sessionId body s
      { out with
        sent := ⟨s.target, s.active, s.req, t.attempt, t.ctxErr⟩ :: out.sent
        penalized := p ++ out.penalized } := by
  have hactive := hout.active h.chosen.1
  -- the host of this attempt is inactive from now on, and every later one is active when chosen
  have hne : ∀ a ∈ out.sent, a.target.id ≠ s.target.id := fun a ha heq => by
    have ha' := hactive a ha
    rw [heq, h.inactive] at ha'
    cases ha'
  refine ⟨⟨_, _, rfl, rfl, rfl, rfl⟩, ?_, fun hsession => absurd h.allowed.2 hsession,
    fun a ha => ⟨h.flags _ (hactive a ha), hne a ha⟩, ?_, hout.requests h.chosen.2 h.req,
    fun h' ha => h.flags h' (hout.flags h' ha), ?_, ?_⟩
  · have hbound := hout.bounded
    have hlt := h.allowed.1
    rw [h.numRetry] at hbound
    simp only [List.length_cons]
    omega
  · refine List.nodup_cons.2 ⟨fun hmem => ?_, hout.distinct⟩
    obtain ⟨a, ha, heq⟩ := List.mem_map.1 hmem
    exact hne a ha heq
  · intro a ha hfailed
    rcases List.mem_cons.1 ha with rfl | ha
    · refine Bool.eq_false_iff.2 fun hflag => ?_
      have hflag' := hout.flags s.target.id hflag
      rw [h.inactive] at hflag'
      cases hflag'
    · exact hout.inactive a ha hfailed
  · rw [h.penalized, hout.penalized]
    simp only
    rw [List.filter_cons_of_pos (by simpa using h.failed), List.map_cons]
    rfl

/-- Enough rounds end the loop, and its attempts are as they should be. -/
theorem loop_sound (c : Cluster) (maxRetry : Int) (sessionId : String) (body : Bytes) :
    ∀ {turns : List Turn}, (∀ t ∈ turns, t.Calm) → ∀ s : State,
    (maxRetry - s.numRetry).toNat < turns.length →
      ∃ out, loop c maxRetry sessionId body turns s = some out ∧ Sound maxRetry sessionId body s out
  | [], _, s, hlen => absurd hlen (Nat.not_lt_zero _)
  | t :: turns, hcalm, s, hlen => by
    rw [loop]
    rcases turn_cases c maxRetry sessionId body s (hcalm t List.mem_cons_self) with
      ⟨p, live, w, e, hturn, hstops⟩ | ⟨p, s', hturn, hretries⟩
    · rw [hturn]
      exact ⟨_, rfl, sound_stop hstops w e⟩
    · -- a retry uses up one turn and one of the retries that are left
      have hlen' : (maxRetry - s'.numRetry).toNat < turns.length := by
        have hlt := hretries.allowed.1
        rw [hretries.numRetry]
        rw [List.length_cons] at hlen
        omega
      obtain ⟨out, hout, hsound⟩ := loop_sound c maxRetry sessionId body
        (fun t' ht' => hcalm t' (List.mem_cons_of_mem t ht')) s' hlen'
      rw [hturn]
      simp only [hout]
      exact ⟨_, rfl, sound_retry hretries hsound⟩

end Rounds

/-! ## The loop as the writers see it -/

/-- The round of `Proxy.Retry` for what happens in a turn. -/
def Turn.round (t : Turn) (nextActive : Bool) : Round := ⟨t.attempt, t.ctxErr, nextActive, t.cannotReach⟩

/-- A turn is such a round, unless it panics. -/
theorem turn_round (c : Cluster) (maxRetry : Int) (sessionId : String) (body : Bytes) (s : State) (t : Turn) :
    (∃ p live w e, turn c maxRetry sessionId body s t = (p, .stop live w e) ∧
      ∀ err, e = .returned err → ∃ nextActive, ∀ rounds,
        Proxy.executeWithRetry maxRetry sessionId s.numRetry (t.round nextActive :: rounds) s.writers =
          some ⟨w, [t.attempt], err⟩) ∨
    (∃ p s', turn c maxRetry sessionId body s t = (p, .retry s') ∧ ∃ nextActive, ∀ rounds,
      Proxy.executeWithRetry maxRetry sessionId s.numRetry (t.round nextActive :: rounds) s.writers =
        (Proxy.executeWithRetry maxRetry sessionId s'.numRetry rounds s'.writers).map fun out =>
          { out with made := t.attempt :: out.made }) := by
  have hgoes := turn_goes c maxRetry sessionId body s t
  -- each way a turn goes gives one branch of the loop of `Proxy.Retry`
  generalize turn c maxRetry sessionId body s t = out at hgoes
  unfold Turn.round
  cases hgoes with
  | canceled hctx =>
    refine .inl ⟨_, _, _, _, rfl, fun err herr => ⟨false, fun _ => ?_⟩⟩
    cases herr
    rw [Proxy.executeWithRetry, hctx]
  | served hctx hgood =>
    refine .inl ⟨_, _, _, _, rfl, fun err herr => ⟨false, fun _ => ?_⟩⟩
    cases herr
    rw [Proxy.executeWithRetry, hctx]
    simp only
    rw [if_neg (by rwa [code_sync])]
  -- a panic is no return, so that nothing has to be matched
  | panics => exact .inl ⟨_, _, _, _, rfl, fun err herr => by cases herr⟩
  | @refused nextHost hfailed hhost hretry =>
    refine .inl ⟨_, _, _, _, rfl, fun err herr =>
      ⟨(afterFailure t s.live s.target.id).flags nextHost.id, fun rounds => ?_⟩⟩
    cases herr
    rw [Proxy.executeWithRetry, hfailed.2]
    simp only
    rw [if_pos (by rw [code_sync, hfailed.1])]
    exact if_neg hretry
  | retried hfailed hhost hretry =>
    refine .inr ⟨_, _, rfl, true, fun rounds => ?_⟩
    rw [Proxy.executeWithRetry, hfailed.2]
    simp only
    rw [if_pos (by rw [code_sync, hfailed.1]), if_pos ⟨hretry.1, trivial, hretry.2.2⟩]

/-- The writers, the attempts and the error are those of `Proxy.Retry`. -/
theorem loop_writers {c : Cluster} {maxRetry : Int} {sessionId : String} {body : Bytes} {err : Option CtxErr} :
    ∀ {turns : List Turn} {s : State} {out : Execution}, loop c maxRetry sessionId body turns s = some out →
      out.ending = .returned err → ∃ rounds, Proxy.executeWithRetry maxRetry sessionId s.numRetry rounds s.writers =
        some ⟨out.writers, out.sent.map Sent.attempt, err⟩
  | [], _, _, h, _ => by cases h
  -- the rounds are found along the turns
  | t :: turns, s, out, h, hending => by
    rw [loop] at h
    rcases turn_round c maxRetry sessionId body s t with
      ⟨p, live, w, e, hturn, hround⟩ | ⟨p, s', hturn, nextActive, hround⟩
    · rw [hturn] at h
      cases h
      obtain ⟨nextActive, hround⟩ := hround err hending
      exact ⟨[t.round nextActive], hround []⟩
    · rw [hturn] at h
      obtain ⟨out', hout', rfl⟩ := Option.map_eq_some_iff.1 h
      obtain ⟨rounds, hrounds⟩ := loop_writers hout' hending
      refine ⟨t.round nextActive :: rounds, ?_⟩
      rw [hround, hrounds]
      rfl

/-! ## Bounded, without repetition, and faithful -/

/-- The attempts of a call are bounded, go to different hosts that were active when they were chosen, and carry the
request as it was; a host that failed while the request was still wanted is left inactive and was penalized once. -/
structure Failsafe (maxRetry : Int) (sessionId : String) (body : Bytes) (out : Execution) : Prop where
  bounded : out.sent.length ≤ (max maxRetry 0).toNat + 1
  session : sessionId ≠ "" → out.sent.length = 1
  distinct : (out.sent.map fun a => a.target.id).Nodup
  later : ∀ a ∈ out.sent.tail, a.active = true ∧ a.req.url = url a.target
  bodies : ∀ a ∈ out.sent, a.req.body = .ok body
  failed : ∀ a ∈ out.sent, a.attempt.status = statusBadGateway → a.ctxErr = none →
    out.live.flags a.target.id = false ∧ out.penalized.count a.target.id = 1

theorem Sound.failsafe {maxRetry : Int} {sessionId : String} {body : Bytes} {s : State} {out : Execution}
    (h : Sound maxRetry sessionId body s out) (hzero : s.numRetry = 0) (hbody : s.req.body = .ok body) :
    Failsafe maxRetry sessionId body out := by
  refine ⟨?_, h.session, h.distinct, fun a ha => ?_, fun a ha => ?_, fun a ha hstatus hctx => ?_⟩
  · have hbound := h.bounded
    rw [hzero] at hbound
    omega
  · obtain ⟨hactive, hreq⟩ := h.later a ha
    exact ⟨hactive, by rw [hreq]⟩
  · have hlater := h.later
    obtain ⟨b, rest, hsent, -, -, hreq⟩ := h.first
    rw [hsent] at ha hlater
    rcases List.mem_cons.1 ha with rfl | ha
    · rw [hreq, hbody]
    · rw [(hlater a ha).2]
  · have hfailed : Failed a.attempt a.ctxErr := ⟨hstatus, hctx⟩
    refine ⟨h.inactive a ha hfailed, ?_⟩
    rw [h.penalized]
    refine List.count_eq_one_of_mem (h.distinct.sublist (List.filter_sublist.map _)) ?_
    exact List.mem_map_of_mem (List.mem_filter.2 ⟨ha, by simpa using hfailed⟩)

/-- `executeWithRetry` ends after at most `max(maxRetry, 0) + 1` attempts. -/
theorem retries_failsafe (c : Cluster) (maxRetry : Int) (sessionId : String) (turns : List Turn) (live : Live)
    (host : Target) (req : Request) (w : Writers) (body : Bytes) (hbody : req.body = .ok body)
    (hcalm : ∀ t ∈ turns, t.Calm) (hlen : (max maxRetry 0).toNat < turns.length) :
    ∃ out, executeWithRetry c maxRetry sessionId turns live host req w = some out ∧
      Failsafe maxRetry sessionId body out := by
  have hread : readAndRestoreRequestBody req = .ok (body, { req with body := .ok body }) := by
    unfold readAndRestoreRequestBody
    rw [hbody]
    rfl
  obtain ⟨out, hout, hsound⟩ := loop_sound c maxRetry sessionId body hcalm
    ⟨live, host, live.flags host.id, { req with body := .ok body }, w, 0⟩ (by simp only; omega)
  refine ⟨out, ?_, hsound.failsafe rfl rfl⟩
  unfold executeWithRetry
  rw [hread]
  exact hout

/-- A call of `getHost` that finds all hosts active and free, and the counter at the second one. -/
def secondHost : Reads := ⟨1, fun _ _ => 0, fun _ _ => true, 1, fun _ => 0, fun _ => true⟩

/-- An attempt that fails, with nobody else at work. -/
def failedTurn (ctxErr : Option CtxErr) : Turn := ⟨.failed, .ok [], ctxErr, id, id, id, secondHost, []⟩

theorem failedTurn_calm (ctxErr : Option CtxErr) : (failedTurn ctxErr).Calm :=
  ⟨fun _ _ h => h, fun _ _ h => h, fun _ _ h => h⟩

/-- Two active hosts, the first of which is tried. -/
def idleLive : Live := ⟨0, fun _ => 0, fun _ => ⟨true, 0, 0⟩⟩

def firstHost : Target := ⟨⟨0, 0⟩, ⟨"http", "a:8123", pairCluster.heartBeat, "c", "default"⟩⟩

def selectRequest : Request := ⟨url firstHost, .ok (bytes "SELECT 1")⟩

def plainWriters : Writers := ⟨{ conn := { header := ∅ } }, none⟩

/-- Both hosts fail, one after the other. -/
theorem retries_failsafe_pair :
    ∃ out, executeWithRetry pairCluster 1 "" [failedTurn none, failedTurn none] idleLive firstHost selectRequest
        plainWriters = some out ∧ Failsafe 1 "" (bytes "SELECT 1") out :=
  retries_failsafe pairCluster 1 "" [failedTurn none, failedTurn none] idleLive firstHost selectRequest plainWriters
    (bytes "SELECT 1") rfl (by simp [failedTurn_calm]) (by decide)

/-- A request that is given up while its attempt fails leaves the host as it is. -/
theorem canceled_not_penalized :
    (∀ t ∈ [failedTurn (some .canceled)], t.Calm) ∧
    ∃ out a, executeWithRetry pairCluster 0 "" [failedTurn (some .canceled)] idleLive firstHost selectRequest
        plainWriters = some out ∧ a ∈ out.sent ∧ a.attempt.status = statusBadGateway ∧
      out.live.flags a.target.id = true ∧ out.penalized.count a.target.id = 0 :=
  ⟨List.forall_mem_singleton.2 (failedTurn_calm _), _, _, rfl, List.mem_cons_self, rfl, rfl, rfl⟩

end Chproxy.Proxy.Failover
