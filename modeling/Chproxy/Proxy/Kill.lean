/-
`killQuery` (`scope.go`) and what it can hit. Any number of processes send queries to the same servers. Each
numbers its scopes from the clock reading at its start (`nextScopeID`), a query carries the number of its
scope as `query_id` on every attempt, and a request that is cancelled or times out sends `KILL QUERY` for
that number to the host of its last attempt.

Queries and kills are messages: they may be delayed, overtake each other or be lost. Which server answers at
an address is left open, so that two nodes of a cluster may be one server.
-/
import Chproxy.Lib.Hexadecimal
import Chproxy.Lib.Pool
import Chproxy.Proxy.Params

namespace Chproxy.Proxy.Killing

open Routing Pool

/-! ## Messages -/

structure Address where
  scheme : String
  host : String
  deriving DecidableEq, Repr

def address (h : Node) : Address := ⟨h.scheme, h.host⟩

/-- The scope that was the `number`-th of its process. -/
structure Ticket where
  process : Nat
  number : Nat
  deriving DecidableEq, Repr

/-- A query on its way or at a server. The ticket says whose it is and is not part of the message. -/
structure Query where
  dest : Address
  queryId : String
  ticket : Ticket

/-- The request that `killQuery` makes. -/
structure Kill where
  dest : Address
  text : String
  ticket : Ticket

def killStatement (queryId : String) : String := "KILL QUERY WHERE query_id = '" ++ queryId ++ "'"

/-- The counter and the number of scopes of each process; the messages under way; the queries that run. -/
structure Net where
  nextScopeID : Nat → UInt64
  made : Nat → Nat
  queries : List Query
  kills : List Kill
  running : List Query

/-- The server looks for the `query_id` of the statement. -/
def Kill.hits (server : Address → Nat) (k : Kill) (q : Query) : Bool :=
  decide (server q.dest = server k.dest) && decide (k.text = killStatement q.queryId)

/-! ## Requests -/

/-- A request before `newScope`, before an attempt, during an attempt, and after the last one, with `canceled`. -/
inductive Handler
  | arrived (process : Nat) (s : Scope) (req : Request)
  | sending (ticket : Ticket) (s : Scope) (req : Request)
  | waiting (ticket : Ticket) (s : Scope) (req : Request)
  | ended (ticket : Ticket) (s : Scope) (canceled : Bool)

inductive Choice
  | proceed
  | retry (host : Node)
  | finish
  | kill

inductive Event
  | arrive (i : Nat)
  | lose (i : Nat)
  | finish (i : Nat)
  | kill (i : Nat)
  | loseKill (i : Nat)

/-- The query of an attempt; a ping is none. -/
def attempt (ticket : Ticket) (req : Request) : List Query :=
  if req.requestURI = pingEndpoint then [] else [⟨⟨req.scheme, req.host⟩, req.query.get "query_id", ticket⟩]

/-- The atomic addition of `newScopeID`, with `decorateRequest` after it; an attempt; and its end: a retry at
another host, a response, or `killQuery`. -/
def step (net : Net) : Handler → Choice → Option (Net × Handler)
  | .arrived p s req, .proceed =>
    let id := net.nextScopeID p + 1
    let s := { s with id }
    some ({ net with
      nextScopeID := Function.update net.nextScopeID p id
      made := Function.update net.made p (net.made p + 1) },
      .sending ⟨p, net.made p + 1⟩ s (decorateRequest s req).1)
  | .sending ticket s req, .proceed =>
    some ({ net with queries := net.queries ++ attempt ticket req }, .waiting ticket s req)
  -- the id stays, so that the query runs under it at both hosts
  | .waiting ticket s req, .retry host =>
    some (net, .sending ticket { s with host } { req with scheme := host.scheme, host := host.host })
  | .waiting ticket s _, .finish => some (net, .ended ticket s false)
  | .waiting ticket s _, .kill =>
    some ({ net with kills := net.kills ++ [⟨address s.host, killStatement (scopeIDString s.id), ticket⟩] },
      .ended ticket s true)
  | _, _ => none

/-- What the network and the servers do. -/
def env (server : Address → Nat) (net : Net) : Event → Option Net
  | .arrive i => (net.queries[i]?).map fun q =>
    { net with queries := net.queries.eraseIdx i, running := net.running ++ [q] }
  | .lose i => some { net with queries := net.queries.eraseIdx i }
  | .finish i => some { net with running := net.running.eraseIdx i }
  | .kill i => (net.kills[i]?).map fun k =>
    { net with kills := net.kills.eraseIdx i, running := net.running.filter fun q => !k.hits server q }
  | .loseKill i => some { net with kills := net.kills.eraseIdx i }

def proxies (server : Address → Nat) : Program Net Handler (Nat × Scope × Request) Choice Event where
  spawn i := .arrived i.1 i.2.1 i.2.2
  step := step
  env := env server

abbrev State := St Net Handler

abbrev Action := Act (Nat × Scope × Request) Choice Event

/-- The processes have read their clocks and no request has come. -/
structure Initial (start : Nat → UInt64) (s : State) : Prop where
  counters : s.shared.nextScopeID = start
  made : s.shared.made = fun _ => 0
  queries : s.shared.queries = []
  kills : s.shared.kills = []
  running : s.shared.running = []
  threads : s.threads = []

/-! ## What a step can do -/

theorem step_cases {net net' : Net} {t t' : Handler} {c : Choice} (h : step net t c = some (net', t')) :
    (∃ p s req, t = .arrived p s req ∧
      net' = { net with
        nextScopeID := Function.update net.nextScopeID p (net.nextScopeID p + 1)
        made := Function.update net.made p (net.made p + 1) } ∧
      t' = .sending ⟨p, net.made p + 1⟩ { s with id := net.nextScopeID p + 1 }
        (decorateRequest { s with id := net.nextScopeID p + 1 } req).1) ∨
    (∃ ticket s req, t = .sending ticket s req ∧
      net' = { net with queries := net.queries ++ attempt ticket req } ∧ t' = .waiting ticket s req) ∨
    (∃ ticket s req host, t = .waiting ticket s req ∧ net' = net ∧
      t' = .sending ticket { s with host } { req with scheme := host.scheme, host := host.host }) ∨
    (∃ ticket s req, t = .waiting ticket s req ∧ net' = net ∧ t' = .ended ticket s false) ∨
    (∃ ticket s req, t = .waiting ticket s req ∧
      net' = { net with kills := net.kills ++ [⟨address s.host, killStatement (scopeIDString s.id), ticket⟩] } ∧
      t' = .ended ticket s true) := by
  unfold step at h
  split at h
  · cases h
    exact .inl ⟨_, _, _, rfl, rfl, rfl⟩
  · cases h
    exact .inr (.inl ⟨_, _, _, rfl, rfl, rfl⟩)
  · cases h
    exact .inr (.inr (.inl ⟨_, _, _, _, rfl, rfl, rfl⟩))
  · cases h
    exact .inr (.inr (.inr (.inl ⟨_, _, _, rfl, rfl, rfl⟩)))
  · cases h
    exact .inr (.inr (.inr (.inr ⟨_, _, _, rfl, rfl, rfl⟩)))
  · cases h

/-- The network makes no message and numbers no scope. -/
theorem env_frame {server : Address → Nat} {net net' : Net} {e : Event} (h : env server net e = some net') :
    net'.nextScopeID = net.nextScopeID ∧ net'.made = net.made ∧
    (∀ q ∈ net'.queries ++ net'.running, q ∈ net.queries ++ net.running) ∧ ∀ k ∈ net'.kills, k ∈ net.kills := by
  cases e with
  -- a query that arrives was under way before
  | arrive i =>
    obtain ⟨q, hq, rfl⟩ := Option.map_eq_some_iff.1 h
    refine ⟨rfl, rfl, ?_, fun _ hk => hk⟩
    rintro x hx
    rcases List.mem_append.1 hx with hx | hx
    · exact List.mem_append_left _ (List.mem_of_mem_eraseIdx hx)
    · rcases List.mem_append.1 hx with hx | hx
      · exact List.mem_append_right _ hx
      · rw [List.mem_singleton.1 hx]
        exact List.mem_append_left _ (List.mem_of_getElem? hq)
  | lose i =>
    cases h
    refine ⟨rfl, rfl, ?_, fun _ hk => hk⟩
    rintro x hx
    rcases List.mem_append.1 hx with hx | hx
    · exact List.mem_append_left _ (List.mem_of_mem_eraseIdx hx)
    · exact List.mem_append_right _ hx
  | finish i =>
    cases h
    refine ⟨rfl, rfl, ?_, fun _ hk => hk⟩
    rintro x hx
    rcases List.mem_append.1 hx with hx | hx
    · exact List.mem_append_left _ hx
    · exact List.mem_append_right _ (List.mem_of_mem_eraseIdx hx)
  | kill i =>
    obtain ⟨k, hk, rfl⟩ := Option.map_eq_some_iff.1 h
    refine ⟨rfl, rfl, ?_, fun _ hk => List.mem_of_mem_eraseIdx hk⟩
    rintro x hx
    rcases List.mem_append.1 hx with hx | hx
    · exact List.mem_append_left _ hx
    · exact List.mem_append_right _ (List.mem_filter.1 hx).1
  | loseKill i =>
    cases h
    exact ⟨rfl, rfl, fun _ hq => hq, fun _ hk => List.mem_of_mem_eraseIdx hk⟩

/-! ## Numbers -/

def Ticket.id (start : Nat → UInt64) (ticket : Ticket) : UInt64 := start ticket.process + .ofNat ticket.number

/-- The scope has been made. -/
def Ticket.Made (made : Nat → Nat) (ticket : Ticket) : Prop :=
  0 < ticket.number ∧ ticket.number ≤ made ticket.process

theorem Ticket.Made.mono {made made' : Nat → Nat} (hle : ∀ p, made p ≤ made' p) {ticket : Ticket}
    (h : ticket.Made made) : ticket.Made made' :=
  ⟨h.1, h.2.trans (hle _)⟩

/-- The counters start at clock readings in nanoseconds: the numbers of a process do not pass the largest
`uint64`, and a process has made fewer scopes than nanoseconds lie between its start and the next one. -/
structure Apart (start : Nat → UInt64) (made : Nat → Nat) : Prop where
  fits : ∀ p, (start p).toNat + made p < 2 ^ 64
  apart : ∀ p q, p ≠ q → 0 < made p → 0 < made q →
    (start p).toNat + made p ≤ (start q).toNat ∨ (start q).toNat + made q ≤ (start p).toNat

theorem Apart.id_toNat {start : Nat → UInt64} {made : Nat → Nat} (h : Apart start made) {ticket : Ticket}
    (hmade : ticket.Made made) : (ticket.id start).toNat = (start ticket.process).toNat + ticket.number := by
  have hfits := h.fits ticket.process
  have hle := hmade.2
  rw [Ticket.id, UInt64.toNat_add, UInt64.toNat_ofNat', Nat.add_mod_mod, Nat.mod_eq_of_lt]
  omega

theorem Apart.id_inj {start : Nat → UInt64} {made : Nat → Nat} (h : Apart start made) {ticket ticket' : Ticket}
    (hmade : ticket.Made made) (hmade' : ticket'.Made made) (heq : ticket.id start = ticket'.id start) :
    ticket = ticket' := by
  have hnat := congrArg UInt64.toNat heq
  rw [h.id_toNat hmade, h.id_toNat hmade'] at hnat
  obtain ⟨p, n⟩ := ticket
  obtain ⟨q, m⟩ := ticket'
  obtain ⟨hn, hnle⟩ := hmade
  obtain ⟨hm, hmle⟩ := hmade'
  dsimp only at hnat hn hnle hm hmle
  by_cases hpq : p = q
  · subst hpq
    rw [Nat.add_left_cancel hnat]
  · rcases h.apart p q hpq (by omega) (by omega) with hle | hle
    · omega
    · omega

theorem scopeIDString_injective : Function.Injective scopeIDString := by
  intro x y h
  apply UInt64.toNat_inj.1
  apply Hexadecimal.upper_injective 8
  exact String.ofList_injective h

theorem killStatement_injective : Function.Injective killStatement := by
  intro x y h
  unfold killStatement at h
  simpa using h

/-- Whatever the client and its user's parameters say, the query goes out under the number of its scope. -/
theorem queryId_decorateRequest (s : Scope) {req : Request}
    (hping : (decorateRequest s req).1.requestURI ≠ pingEndpoint) :
    (decorateRequest s req).1.query.get "query_id" = scopeIDString s.id := by
  have hreq : req.requestURI ≠ pingEndpoint := by
    intro heq
    apply hping
    simp [decorateRequest, heq]
  simp only [decorateRequest, dif_neg hreq, decorateParams, Values.get, Values.set]
  rw [AList.lookup_insert_ne (by decide), AList.lookup_insert]
  rfl

/-! ## The invariant -/

def Handler.ticket : Handler → Option Ticket
  | .arrived .. => none
  | .sending ticket .. => some ticket
  | .waiting ticket .. => some ticket
  | .ended ticket .. => some ticket

/-- The scope, once it is made. -/
def Handler.scope : Handler → Option Scope
  | .arrived .. => none
  | .sending _ s _ => some s
  | .waiting _ s _ => some s
  | .ended _ s _ => some s

/-- A scope has the number of its ticket. -/
structure Numbered (start : Nat → UInt64) (made : Nat → Nat) (ticket : Ticket) (s : Scope) : Prop where
  made : ticket.Made made
  id : s.id = ticket.id start

def Handler.Sound (start : Nat → UInt64) (made : Nat → Nat) : Handler → Prop
  | .arrived .. => True
  | .sending ticket s req => Numbered start made ticket s ∧
    (req.requestURI ≠ pingEndpoint → req.query.get "query_id" = scopeIDString s.id)
  | .waiting ticket s req => Numbered start made ticket s ∧
    (req.requestURI ≠ pingEndpoint → req.query.get "query_id" = scopeIDString s.id)
  | .ended ticket s _ => Numbered start made ticket s

/-- A query bears the number of its request. -/
structure Query.Sound (start : Nat → UInt64) (made : Nat → Nat) (q : Query) : Prop where
  made : q.ticket.Made made
  queryId : q.queryId = scopeIDString (q.ticket.id start)

/-- The request that sent the kill has ended, canceled, at the host the kill goes to. -/
def Kill.SentBy (k : Kill) (t : Handler) : Prop :=
  ∃ s, t = .ended k.ticket s true ∧ k.dest = address s.host ∧ k.text = killStatement (scopeIDString s.id)

structure Inv (start : Nat → UInt64) (s : State) : Prop where
  counter : ∀ p, s.shared.nextScopeID p = start p + .ofNat (s.shared.made p)
  handlers : ∀ t ∈ s.threads, t.Sound start s.shared.made
  tickets : Labelled Handler.ticket s.threads
  queries : ∀ q ∈ s.shared.queries ++ s.shared.running, q.Sound start s.shared.made
  kills : ∀ k ∈ s.shared.kills, ∃ t ∈ s.threads, k.SentBy t

variable {start : Nat → UInt64}

theorem inv_initial {s : State} (h : Initial start s) : Inv start s where
  counter p := by simp [h.counters, h.made]
  handlers := by simp [h.threads]
  tickets := by simp [Labelled, h.threads]
  queries := by simp [h.queries, h.running]
  kills := by simp [h.kills]

theorem Numbered.mono {made made' : Nat → Nat} (hle : ∀ p, made p ≤ made' p) {ticket : Ticket} {s : Scope}
    (h : Numbered start made ticket s) : Numbered start made' ticket s :=
  ⟨h.made.mono hle, h.id⟩

theorem Handler.Sound.mono {made made' : Nat → Nat} (hle : ∀ p, made p ≤ made' p) {t : Handler}
    (h : t.Sound start made) : t.Sound start made' := by
  cases t with
  | arrived => trivial
  | sending => exact ⟨h.1.mono hle, h.2⟩
  | waiting => exact ⟨h.1.mono hle, h.2⟩
  | ended => exact Numbered.mono hle h

theorem Query.Sound.mono {made made' : Nat → Nat} (hle : ∀ p, made p ≤ made' p) {q : Query}
    (h : q.Sound start made) : q.Sound start made' :=
  ⟨h.made.mono hle, h.queryId⟩

theorem Handler.Sound.made {made : Nat → Nat} {t : Handler} {ticket : Ticket} (h : t.Sound start made)
    (ht : t.ticket = some ticket) : ticket.Made made := by
  cases t with
  | arrived => cases ht
  | sending => cases ht; exact h.1.made
  | waiting => cases ht; exact h.1.made
  | ended => cases ht; exact Numbered.made h

theorem Handler.Sound.numbered {made : Nat → Nat} {t : Handler} {s : Scope} (h : t.Sound start made)
    (ht : t.scope = some s) : ∃ ticket, t.ticket = some ticket ∧ Numbered start made ticket s := by
  cases t with
  | arrived => cases ht
  | sending ticket => cases ht; exact ⟨ticket, rfl, h.1⟩
  | waiting ticket => cases ht; exact ⟨ticket, rfl, h.1⟩
  | ended ticket => cases ht; exact ⟨ticket, rfl, h⟩

theorem attempt_sound {made : Nat → Nat} {ticket : Ticket} {s : Scope} {req : Request}
    (h : (Handler.sending ticket s req).Sound start made) : ∀ q ∈ attempt ticket req, q.Sound start made := by
  intro q hq
  unfold attempt at hq
  split at hq
  · cases hq
  · rename_i hping
    rw [List.mem_singleton.1 hq]
    refine ⟨h.1.made, ?_⟩
    rw [← h.1.id]
    exact h.2 hping

section Steps

variable {server : Address → Nat} {s s' : State} {a : Action} {n : Nat} {t t' : Handler} {c : Choice} {net' : Net}

/-- Kills are sent by requests that have ended, which do not move any more. -/
theorem Inv.kills_set (h : Inv start s) (ht : s.threads[n]? = some t)
    (hmoved : ∀ ticket sc, t ≠ .ended ticket sc true) :
    ∀ k ∈ s.shared.kills, ∃ u ∈ s.threads.set n t', k.SentBy u := by
  intro k hk
  obtain ⟨u, hu, sc, rfl, hsent⟩ := h.kills k hk
  exact ⟨_, mem_set_of_ne hu ht (Ne.symm (hmoved _ _)), sc, rfl, hsent⟩

theorem Inv.threadStep (h : Inv start s) (ht : s.threads[n]? = some t)
    (hst : step s.shared t c = some (net', t')) : Inv start ⟨net', s.threads.set n t'⟩ := by
  have hsound := h.handlers t (List.mem_of_getElem? ht)
  obtain ⟨p, sc, req, rfl, rfl, rfl⟩ | ⟨ticket, sc, req, rfl, rfl, rfl⟩ | ⟨ticket, sc, req, host, rfl, rfl, rfl⟩ |
    ⟨ticket, sc, req, rfl, rfl, rfl⟩ | ⟨ticket, sc, req, rfl, rfl, rfl⟩ := step_cases hst
  · -- the new number is above all that were handed out
    have hle : ∀ q, s.shared.made q ≤ Function.update s.shared.made p (s.shared.made p + 1) q := by
      intro q
      by_cases hq : q = p
      · subst hq
        simp
      · simp [hq]
    have hid : s.shared.nextScopeID p + 1 = Ticket.id start ⟨p, s.shared.made p + 1⟩ := by
      rw [h.counter p, Ticket.id, UInt64.ofNat_add, UInt64.add_assoc]
      rfl
    refine ⟨fun q => ?_, forall_mem_set (fun u hu => (h.handlers u hu).mono hle) ?_,
      labelled_set h.tickets ht (.inr ?_),
      fun q hq => (h.queries q hq).mono hle, h.kills_set ht (by simp)⟩
    · by_cases hq : q = p
      · subst hq
        simp only [Function.update_self]
        exact hid
      · simp only [Function.update_of_ne hq]
        exact h.counter q
    · exact ⟨⟨⟨Nat.succ_pos _, by simp⟩, hid⟩, queryId_decorateRequest _⟩
    · rintro _ ⟨⟩ u hu hticket
      have := ((h.handlers u hu).made hticket).2
      dsimp only at this
      omega
  · refine ⟨h.counter, forall_mem_set h.handlers hsound, labelled_set h.tickets ht (.inl rfl), ?_,
      h.kills_set ht (by simp)⟩
    -- an attempt runs at its server beside those that were running
    intro q hq
    rw [List.append_assoc] at hq
    rcases List.mem_append.1 hq with hq | hq
    · exact h.queries q (List.mem_append_left _ hq)
    · rcases List.mem_append.1 hq with hq | hq
      · exact attempt_sound hsound q hq
      · exact h.queries q (List.mem_append_right _ hq)
  · exact ⟨h.counter, forall_mem_set h.handlers ⟨⟨hsound.1.made, hsound.1.id⟩, hsound.2⟩,
      labelled_set h.tickets ht (.inl rfl), h.queries, h.kills_set ht (by simp)⟩
  · exact ⟨h.counter, forall_mem_set h.handlers hsound.1, labelled_set h.tickets ht (.inl rfl), h.queries,
      h.kills_set ht (by simp)⟩
  · refine ⟨h.counter, forall_mem_set h.handlers hsound.1, labelled_set h.tickets ht (.inl rfl), h.queries, ?_⟩
    exact forall_mem_concat (h.kills_set ht (by simp)) ⟨_, mem_set_self ht, sc, rfl, rfl, rfl⟩

theorem Inv.next (h : Inv start s) (hn : (proxies server).next s a = some s') : Inv start s' := by
  obtain ⟨i, -, rfl⟩ | ⟨n, c, t, net', t', -, ht, hst, rfl⟩ | ⟨e, net', -, he, rfl⟩ := Program.next_cases hn
  · refine ⟨h.counter, forall_mem_concat h.handlers trivial, labelled_concat h.tickets nofun, h.queries, fun k hk => ?_⟩
    obtain ⟨t, ht, hsent⟩ := h.kills k hk
    exact ⟨t, List.mem_append_left _ ht, hsent⟩
  · exact h.threadStep ht hst
  · obtain ⟨hcounter, hmade, hqueries, hkills⟩ := env_frame he
    refine ⟨fun p => ?_, fun t ht => ?_, h.tickets, fun q hq => ?_, fun k hk => h.kills k (hkills k hk)⟩
    · rw [hcounter, hmade]
      exact h.counter p
    · rw [hmade]
      exact h.handlers t ht
    · rw [hmade]
      exact h.queries q (hqueries q hq)

theorem inv_reach (h : Steps.Reach (proxies server).next (Initial start) s) : Inv start s :=
  h.invariant (fun _ => inv_initial) fun _ _ _ hinv hn _ => hinv.next hn

/-- On the server it reaches, a kill hits the queries of the request that sent it and no others. -/
theorem Inv.hits_iff (h : Inv start s) (hapart : Apart start s.shared.made) {k : Kill} (hk : k ∈ s.shared.kills)
    {q : Query} (hq : q ∈ s.shared.running) :
    k.hits server q = (decide (server q.dest = server k.dest) && decide (q.ticket = k.ticket)) := by
  obtain ⟨t, ht, sc, rfl, -, htext⟩ := h.kills k hk
  have hnumbered : Numbered start s.shared.made k.ticket sc := h.handlers _ ht
  have hquery := h.queries q (List.mem_append_right _ hq)
  have hiff : k.text = killStatement q.queryId ↔ q.ticket = k.ticket := by
    rw [htext, killStatement_injective.eq_iff, hquery.queryId, scopeIDString_injective.eq_iff, hnumbered.id]
    constructor
    · intro hid
      exact hapart.id_inj hquery.made hnumbered.made hid.symm
    · intro hticket
      rw [hticket]
  rw [Kill.hits, decide_eq_decide.2 hiff]

/-- The ids of the scopes are apart, whichever process made them. -/
theorem Inv.id_unique (h : Inv start s) (hapart : Apart start s.shared.made) {m : Nat} {sc sc' : Scope}
    (hn : s.threads[n]? = some t) (hsc : t.scope = some sc) (hm : s.threads[m]? = some t') (hsc' : t'.scope = some sc')
    (hid : sc'.id = sc.id) : m = n := by
  obtain ⟨ticket, hticket, hnumbered⟩ := (h.handlers t (List.mem_of_getElem? hn)).numbered hsc
  obtain ⟨ticket', hticket', hnumbered'⟩ := (h.handlers t' (List.mem_of_getElem? hm)).numbered hsc'
  have heq : ticket' = ticket := by
    apply hapart.id_inj hnumbered'.made hnumbered.made
    rw [← hnumbered'.id, ← hnumbered.id, hid]
  exact h.tickets m n t' t ticket hm hn (heq ▸ hticket') hticket

end Steps

/-- A kill that arrives ends, of all the queries at that server, those of the request that sent it, and sent
there. It names the id of that request's scope, which no other request has, and was sent to the host of the
request's last attempt. -/
theorem kill_hits_own_query {server : Address → Nat} {s s' : State}
    (h : Steps.Reach (proxies server).next (Initial start) s) (hapart : Apart start s.shared.made) {i : Nat} {k : Kill}
    (hk : s.shared.kills[i]? = some k) (hstep : (proxies server).next s (.env (.kill i)) = some s') :
    s'.shared.running =
      s.shared.running.filter (fun q => !(decide (server q.dest = server k.dest) && decide (q.ticket = k.ticket))) ∧
    ∃ (n : Nat) (sc : Scope), s.threads[n]? = some (.ended k.ticket sc true) ∧ k.dest = address sc.host ∧
      k.text = killStatement (scopeIDString sc.id) ∧
      ∀ (m : Nat) (t : Handler), s.threads[m]? = some t →
        (t.ticket = some k.ticket → m = n) ∧ ∀ sc', t.scope = some sc' → sc'.id = sc.id → m = n := by
  have hinv := inv_reach h
  have hmem := List.mem_of_getElem? hk
  constructor
  · have hs' : s'.shared.running = s.shared.running.filter fun q => !k.hits server q := by
      obtain ⟨net', hnet, hs'⟩ := Option.bind_eq_some_iff.1 hstep
      cases hs'
      simp only [proxies, env, hk, Option.map_some, Option.some.injEq] at hnet
      rw [← hnet]
    rw [hs']
    apply List.filter_congr
    intro q hq
    -- the id in the text is that of one request only, so that it matches by the ticket
    rw [hinv.hits_iff hapart hmem hq]
  · obtain ⟨t, ht, sc, rfl, hdest, htext⟩ := hinv.kills k hmem
    obtain ⟨n, hn⟩ := List.mem_iff_getElem?.1 ht
    refine ⟨n, sc, hn, hdest, htext, fun m t hm => ⟨fun hticket => ?_, fun sc' hsc' hid => ?_⟩⟩
    · exact hinv.tickets m n t _ k.ticket hm hn hticket rfl
    · exact hinv.id_unique hapart hn rfl hm hsc' hid

/-- Two requests of different processes, whose queries both run, when the first is cancelled. -/
def twoSelects : List Action :=
  [.spawn (0, plainScope "c", selectAs "a" "x"), .spawn (1, plainScope "c", selectAs "a" "x"),
    .step 0 .proceed, .step 1 .proceed, .step 0 .proceed, .step 1 .proceed, .env (.arrive 0), .env (.arrive 0),
    .step 0 .kill]

/-- The second process has started 100 ns after the first. -/
def twoStarts (p : Nat) : UInt64 := if p = 1 then 200 else 100

theorem kill_hits_own_query_two :
    ∃ s s' k, Steps.Reach (proxies fun _ => 0).next (Initial twoStarts) s ∧ Apart twoStarts s.shared.made ∧
      s.shared.running.map (·.ticket) = [⟨0, 1⟩, ⟨1, 1⟩] ∧ s.shared.kills[0]? = some k ∧
      (proxies fun _ => 0).next s (.env (.kill 0)) = some s' ∧ s'.shared.running.map (·.ticket) = [⟨1, 1⟩] := by
  obtain ⟨s, hrun, hmade, hrunning, k, hk, hticket⟩ : ∃ s,
      Steps.run (proxies fun _ => 0).next ⟨⟨twoStarts, fun _ => 0, [], [], []⟩, []⟩ twoSelects = some s ∧
      s.shared.made = Function.update (Function.update (fun _ => 0) 0 1) 1 1 ∧
      s.shared.running.map (·.ticket) = [⟨0, 1⟩, ⟨1, 1⟩] ∧
      ∃ k, s.shared.kills[0]? = some k ∧ k.ticket = ⟨0, 1⟩ :=
    ⟨_, rfl, rfl, rfl, _, rfl, rfl⟩
  have hreach : Steps.Reach (proxies fun _ => 0).next (Initial twoStarts) s :=
    .of_run twoSelects (.init ⟨rfl, rfl, rfl, rfl, rfl, rfl⟩) hrun
  have hapart : Apart twoStarts s.shared.made := by
    -- each process has handed out at most one number
    have hone : ∀ p, s.shared.made p ≤ 1 ∧ (0 < s.shared.made p → p = 0 ∨ p = 1) := fun p => by
      rw [hmade]
      by_cases hp : p = 1
      · simp [hp]
      · by_cases hp0 : p = 0
        · simp [hp0]
        · simp [hp, hp0]
    have hstart : ∀ p, (twoStarts p).toNat = if p = 1 then 200 else 100 := fun p => by
      unfold twoStarts
      split <;> rfl
    constructor
    · intro p
      have hle := (hone p).1
      rw [hstart]
      split <;> omega
    · intro p q hpq hp hq
      have hple := (hone p).1
      have hqle := (hone q).1
      rw [hstart, hstart]
      rcases (hone p).2 hp with rfl | rfl
      · rcases (hone q).2 hq with rfl | rfl
        · exact absurd rfl hpq
        · simp only [if_true, if_neg (by decide : ¬(0 = 1))]
          omega
      · rcases (hone q).2 hq with rfl | rfl
        · simp only [if_true, if_neg (by decide : ¬(0 = 1))]
          omega
        · exact absurd rfl hpq
  have hstep : (proxies fun _ => 0).next s (.env (.kill 0)) = some ⟨{ s.shared with
      kills := s.shared.kills.eraseIdx 0
      running := s.shared.running.filter fun q => !k.hits (fun _ => 0) q }, s.threads⟩ := by
    simp [Program.next, proxies, env, hk]
  refine ⟨s, _, k, hreach, hapart, hrunning, hk, hstep, ?_⟩
  rw [(kill_hits_own_query hreach hapart hk hstep).1, hticket]
  simp only [decide_true, Bool.true_and]
  have hleft := congrArg (List.filter fun ticket => !decide (ticket = (⟨0, 1⟩ : Ticket))) hrunning
  rw [List.filter_map] at hleft
  exact hleft

end Chproxy.Proxy.Killing
