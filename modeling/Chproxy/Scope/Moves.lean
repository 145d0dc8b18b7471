/-
What one atomic operation of a request does: `Moves` has a case for each way through `advance`, with what was tested
on the way, what happens to the shared state and where the request is afterwards. What a step preserves is proved
by cases on it (`advance_moves`).
-/
import Chproxy.Scope.Admission
import Mathlib.Tactic

namespace Chproxy.Scope

open Function

/-- Everything one atomic operation of a request can do: a case for each way through it. -/
inductive Moves (env : Env) (h : Shared) (c : Choice) : Request → Shared → Request → Prop
  | direct (r : Request) : (env.limits (r.acct .user)).queueCh = none ∧
        (env.limits (r.acct .clusterUser)).queueCh = none →
      Moves env h c { r with pc := .incQueued } h { r with pc := .inc .user }
  | queued (r : Request) : ¬((env.limits (r.acct .user)).queueCh = none ∧
        (env.limits (r.acct .clusterUser)).queueCh = none) →
      Moves env h c { r with pc := .incQueued } h { r with pc := .enqueue .user }
  | noUserQueue (r : Request) : (env.limits (r.acct .user)).queueCh = none →
      Moves env h c { r with pc := .enqueue .user } h { r with pc := .enqueue .clusterUser }
  | noClusterUserQueue (r : Request) : (env.limits (r.acct .clusterUser)).queueCh = none →
      Moves env h c { r with pc := .enqueue .clusterUser } h { r with pc := .queueSizeInc }
  | enterUser (r : Request) (cap : Nat) : (env.limits (r.acct .user)).queueCh = some cap →
      h.queueLen (r.acct .user) < cap →
      Moves env h c { r with pc := .enqueue .user } (h.send (r.acct .user))
        { r with uSlot := true, pc := .enqueue .clusterUser }
  | enterClusterUser (r : Request) (cap : Nat) : (env.limits (r.acct .clusterUser)).queueCh = some cap →
      h.queueLen (r.acct .clusterUser) < cap →
      Moves env h c { r with pc := .enqueue .clusterUser } (h.send (r.acct .clusterUser))
        { r with cSlot := true, pc := .queueSizeInc }
  | full (r : Request) (side : Side) (cap : Nat) : (env.limits (r.acct side)).queueCh = some cap →
      cap ≤ h.queueLen (r.acct side) →
      Moves env h c { r with pc := .enqueue side } h { r with pc := .inc .user }
  | queueSizeInc (r : Request) : env.validQueueLabels r.labels.queue = true →
      Moves env h c { r with pc := .queueSizeInc } (h.addQueueSize r.labels.queue 1)
        { r with waiting := true, pc := .inc .user }
  | queueSizePanic (r : Request) : env.validQueueLabels r.labels.queue = false →
      Moves env h c { r with pc := .queueSizeInc } h
        { r with panic := some .queueSizeInc, pc := .leave .clusterUser }
  | incUser (r : Request) :
      Moves env h c { r with pc := .inc .user } (h.incQuery (r.acct .user))
        { r with uQueries := (h.queryCounter (r.acct .user)).inc, pc := .inc .clusterUser }
  | incClusterUser (r : Request) :
      Moves env h c { r with pc := .inc .clusterUser } (h.incQuery (r.acct .clusterUser))
        { r with
          cQueries := (h.queryCounter (r.acct .clusterUser)).inc
          err := override ((env.limits (r.acct .clusterUser)).checkConcurrent .clusterUser
            (h.queryCounter (r.acct .clusterUser)).inc) ((env.limits (r.acct .user)).checkConcurrent .user r.uQueries)
          pc := .rate .user }
  | rateUser (r : Request) :
      Moves env h c { r with pc := .rate .user } (h.incRate (r.acct .user))
        { r with
          err := override ((env.limits (r.acct .user)).checkRate .user (h.rateLimiter (r.acct .user)).inc) r.err
          pc := .rate .clusterUser }
  | rateClusterUser (r : Request) :
      Moves env h c { r with pc := .rate .clusterUser } (h.incRate (r.acct .clusterUser))
        { r with
          err := override ((env.limits (r.acct .clusterUser)).checkRate .clusterUser
            (h.rateLimiter (r.acct .clusterUser)).inc) r.err
          pc := .packetSize .user }
  | packetSizeUser (r : Request) (n : Nat) (e : Option LimitError) :
      (env.limits (r.acct .user)).checkPacketSize .user (h.tokens (r.acct .user)) r.requestPacketSize = (n, e) →
      Moves env h c { r with pc := .packetSize .user } (h.setTokens (r.acct .user) n)
        { r with err := override e r.err, pc := .packetSize .clusterUser }
  | failed (r : Request) (n : Nat) (e : Option LimitError) (err : LimitError) :
      (env.limits (r.acct .clusterUser)).checkPacketSize .clusterUser (h.tokens (r.acct .clusterUser))
        r.requestPacketSize = (n, e) → override e r.err = some err →
      Moves env h c { r with pc := .packetSize .clusterUser } (h.setTokens (r.acct .clusterUser) n)
        { r with err := some err, pc := .undo .user }
  | passed (r : Request) (n : Nat) (e : Option LimitError) :
      (env.limits (r.acct .clusterUser)).checkPacketSize .clusterUser (h.tokens (r.acct .clusterUser))
        r.requestPacketSize = (n, e) → override e r.err = none →
      Moves env h c { r with pc := .packetSize .clusterUser } (h.setTokens (r.acct .clusterUser) n)
        { r with err := none, pc := .connect }
  | undoUser (r : Request) :
      Moves env h c { r with pc := .undo .user } (h.decQuery (r.acct .user)) { r with pc := .undo .clusterUser }
  | undoClusterUser (r : Request) :
      Moves env h c { r with pc := .undo .clusterUser } (h.decQuery (r.acct .clusterUser))
        { r with pc := .undoRate .user }
  | undoRateUser (r : Request) :
      Moves env h c { r with pc := .undoRate .user } (h.decRate (r.acct .user))
        { r with pc := .undoRate .clusterUser }
  | undoRateClusterUser (r : Request) :
      Moves env h c { r with pc := .undoRate .clusterUser } (h.decRate (r.acct .clusterUser))
        { r with pc := .incReturned }
  | connect (r : Request) :
      Moves env h c { r with pc := .connect } (h.incrementConnections r.host) { r with pc := .gaugeInc }
  | gaugeInc (r : Request) : env.validLabels r.labels = true →
      Moves env h c { r with pc := .gaugeInc } (h.addConcurrent r.labels 1)
        { r with incLabels := some r.labels, pc := .incReturned }
  | waitingPanic (r : Request) : env.validLabels r.labels = false → r.waiting = true →
      Moves env h c { r with pc := .gaugeInc } h { r with panic := some .gaugeInc, pc := .queueSizeDec }
  | panics (r : Request) : env.validLabels r.labels = false → r.waiting = false →
      Moves env h c { r with pc := .gaugeInc } h { r with panic := some .gaugeInc, pc := .leave .clusterUser }
  | waited (r : Request) : r.waiting = true → r.err = none ∨ c.expired = true →
      Moves env h c { r with pc := .incReturned } h { r with pc := .queueSizeDec }
  | waits (r : Request) : r.waiting = true → r.err ≠ none → c.expired = false →
      Moves env h c { r with pc := .incReturned } h { r with pc := .rechoose }
  | notWaiting (r : Request) : r.waiting = false →
      Moves env h c { r with pc := .incReturned } h { r with pc := .leave .clusterUser }
  | rechoose (r : Request) :
      Moves env h c { r with pc := .rechoose } h
        { r with
          host := c.next
          labels := { r.labels with replica := env.replicaName c.next, clusterNode := env.host c.next }
          pc := .inc .user }
  | queueSizeDec (r : Request) :
      Moves env h c { r with pc := .queueSizeDec } (h.addQueueSize r.labels.queue (-1))
        { r with waiting := false, pc := .leave .clusterUser }
  | leaveClusterUser (r : Request) (n : Nat) : r.cSlot = true → h.queueLen (r.acct .clusterUser) = n + 1 →
      Moves env h c { r with pc := .leave .clusterUser }
        { h with queueLen := update h.queueLen (r.acct .clusterUser) n } { r with cSlot := false, pc := .leave .user }
  | notInClusterUser (r : Request) : r.cSlot = false →
      Moves env h c { r with pc := .leave .clusterUser } h { r with pc := .leave .user }
  | leaveUser (r : Request) (n : Nat) : r.uSlot = true → h.queueLen (r.acct .user) = n + 1 →
      Moves env h c { r with pc := .leave .user }
        { h with queueLen := update h.queueLen (r.acct .user) n } { r with uSlot := false, pc := .returned }
  | notInUser (r : Request) : r.uSlot = false →
      Moves env h c { r with pc := .leave .user } h { r with pc := .returned }
  | admitted (r : Request) : r.err = none → r.panic = none →
      Moves env h c { r with pc := .returned } h { r with pc := .attempt }
  | rejected (r : Request) : ¬(r.err = none ∧ r.panic = none) →
      Moves env h c { r with pc := .returned } h { r with pc := .done }
  | badGateway (r : Request) : c.badGateway = true →
      Moves env h c { r with pc := .attempt } h { r with pc := .deactivate }
  | served (r : Request) : c.badGateway = false →
      Moves env h c { r with pc := .attempt } h { r with pc := .dec .user }
  | deactivate (r : Request) :
      Moves env h c { r with pc := .deactivate } (h.setIsActive r.host false) { r with pc := .pickHost }
  | nextHost (r : Request) : r.numRetry < r.retryNumber ∧ h.active c.next = true ∧ r.sessionId = "" →
      r.host ≠ c.next →
      Moves env h c { r with pc := .pickHost } h { r with next := c.next, pc := .retryDec }
  | sameHost (r : Request) : r.numRetry < r.retryNumber ∧ h.active c.next = true ∧ r.sessionId = "" →
      r.host = c.next →
      Moves env h c { r with pc := .pickHost } h { r with next := c.next, pc := .retryHost }
  | noRetry (r : Request) : ¬(r.numRetry < r.retryNumber ∧ h.active c.next = true ∧ r.sessionId = "") →
      Moves env h c { r with pc := .pickHost } h { r with pc := .dec .user }
  | retryDec (r : Request) :
      Moves env h c { r with pc := .retryDec } (h.decrementConnections r.host) { r with pc := .retryInc }
  | retryInc (r : Request) :
      Moves env h c { r with pc := .retryInc } (h.incrementConnections r.next) { r with pc := .retryHost }
  | retryHost (r : Request) :
      Moves env h c { r with pc := .retryHost } h
        { r with host := r.next, numRetry := r.numRetry + 1, pc := .attempt }
  | decUser (r : Request) :
      Moves env h c { r with pc := .dec .user } (h.decQuery (r.acct .user)) { r with pc := .dec .clusterUser }
  | decClusterUser (r : Request) :
      Moves env h c { r with pc := .dec .clusterUser } (h.decQuery (r.acct .clusterUser)) { r with pc := .decHost }
  | decHost (r : Request) :
      Moves env h c { r with pc := .decHost } (h.decrementConnections r.host) { r with pc := .gaugeDec }
  | gaugeDec (r : Request) : env.validLabels r.labels = true →
      Moves env h c { r with pc := .gaugeDec } (h.addConcurrent r.labels (-1)) { r with pc := .done }
  | decPanic (r : Request) : env.validLabels r.labels = false →
      Moves env h c { r with pc := .gaugeDec } h { r with panic := some .gaugeDec, pc := .done }

theorem receive_some {a : Acct} {h h' : Shared} (hr : h.receive a = some h') :
    ∃ n, h.queueLen a = n + 1 ∧ h' = { h with queueLen := update h.queueLen a n } := by
  unfold Shared.receive at hr
  split at hr
  · rename_i hpos
    cases hr
    exact ⟨h.queueLen a - 1, by omega, rfl⟩
  · cases hr

theorem advance_moves {env : Env} {h h' : Shared} {r r' : Request} {c : Choice}
    (hs : advance env h r c = some (h', r')) : Moves env h c r h' r' := by
  -- with the point a variable of its own, every case of `advance` computes
  suffices hall : ∀ pc, advance env h { r with pc := pc } c = some (h', r') →
      Moves env h c { r with pc := pc } h' r' from hall r.pc hs
  clear hs
  intro pc hs
  cases pc with
  | incQueued =>
    simp only [advance] at hs
    split at hs <;> cases hs
    · exact .direct r ‹_›
    · exact .queued r ‹_›
  | enqueue side =>
    cases side <;> simp only [advance] at hs <;> split at hs
    · cases hs
      exact .noUserQueue r ‹_›
    · split at hs <;> cases hs
      · exact .enterUser r _ ‹_› ‹_›
      · exact .full r .user _ ‹_› (not_lt.1 ‹_›)
    · cases hs
      exact .noClusterUserQueue r ‹_›
    · split at hs <;> cases hs
      · exact .enterClusterUser r _ ‹_› ‹_›
      · exact .full r .clusterUser _ ‹_› (not_lt.1 ‹_›)
  | queueSizeInc =>
    simp only [advance] at hs
    split at hs <;> cases hs
    · exact .queueSizeInc r ‹_›
    · exact .queueSizePanic r (Bool.eq_false_iff.2 ‹_›)
  | inc side | rate side | undo side | undoRate side | dec side =>
    cases side <;> cases hs
    · constructor
    · constructor
  | packetSize side =>
    cases side
    · cases hs
      exact .packetSizeUser r _ _ rfl
    · simp only [advance] at hs
      split at hs <;> cases hs
      · exact .failed r _ _ _ rfl ‹_›
      · exact .passed r _ _ rfl ‹_›
  | gaugeInc =>
    simp only [advance] at hs
    split at hs
    · cases hs
      exact .gaugeInc r ‹_›
    · rename_i hlabels
      split at hs <;> cases hs
      · exact .waitingPanic r (Bool.eq_false_iff.2 hlabels) ‹_›
      · exact .panics r (Bool.eq_false_iff.2 hlabels) (Bool.eq_false_iff.2 ‹_›)
  | gaugeDec =>
    simp only [advance] at hs
    split at hs <;> cases hs
    · exact .gaugeDec r ‹_›
    · exact .decPanic r (Bool.eq_false_iff.2 ‹_›)
  | incReturned =>
    simp only [advance] at hs
    split at hs
    · rename_i hw
      split at hs <;> rename_i hover <;> cases hs
      · exact .waited r hw hover
      · obtain ⟨herr, hexpired⟩ := not_or.1 hover
        exact .waits r hw herr (Bool.eq_false_iff.2 hexpired)
    · cases hs
      exact .notWaiting r (Bool.eq_false_iff.2 ‹_›)
  | leave side =>
    cases side <;> simp only [advance] at hs <;> split at hs
    · obtain ⟨h₁, h1, h2⟩ := Option.map_eq_some_iff.1 hs
      obtain ⟨n, hn, rfl⟩ := receive_some h1
      cases h2
      exact .leaveUser r n ‹_› hn
    · cases hs
      exact .notInUser r (Bool.eq_false_iff.2 ‹_›)
    · obtain ⟨h₁, h1, h2⟩ := Option.map_eq_some_iff.1 hs
      obtain ⟨n, hn, rfl⟩ := receive_some h1
      cases h2
      exact .leaveClusterUser r n ‹_› hn
    · cases hs
      exact .notInClusterUser r (Bool.eq_false_iff.2 ‹_›)
  | returned =>
    simp only [advance] at hs
    split at hs <;> cases hs
    · rename_i hok
      exact .admitted r hok.1 hok.2
    · exact .rejected r ‹_›
  | attempt =>
    simp only [advance] at hs
    split at hs <;> cases hs
    · exact .badGateway r ‹_›
    · exact .served r (Bool.eq_false_iff.2 ‹_›)
  | pickHost =>
    simp only [advance] at hs
    split at hs
    · rename_i hretry
      split at hs <;> cases hs
      · exact .nextHost r hretry ‹_›
      · exact .sameHost r hretry (not_not.1 ‹_›)
    · cases hs
      exact .noRetry r ‹_›
  | done => cases hs
  | _ => cases hs; constructor

end Chproxy.Scope
