/-
The way of a request to ClickHouse up to its admission: `serveHTTP` of `main.go` (method, path, networks
of the listener) and `getScope` of `proxy.go` with what it calls (`getAuth`, `getSessionId`,
`getSessionTimeout` of `utils.go`): who is asking, over which listener, from which address.
-/
import Chproxy.Config.Durations
import Chproxy.Config.Security
import Chproxy.Proxy.Decorate
import Chproxy.ProxyHandler
import Chproxy.Routing.Credentials

namespace Chproxy.Gate

open Config (NetParsers Networks Source Loaded Scheme)
open Proxy (Request Codec pingEndpoint getFullQuery)
open Routing (ReverseProxy Process World User Cluster ClusterUser Lookup Failure Map userValues defaultUser)
open ProxyHandler (Incoming getRemoteAddr addressOf)
open Utils (bytes)
open Fallible (bind_ok)

/-! ## Requests -/

/-- Package `net`, the canonical form of header names, and the two decompressors. -/
structure Env where
  net : NetParsers
  canonicalKey : String → String
  codec : Codec

/-- A request as it arrives at one of the two listeners. -/
structure Arrival where
  method : String
  path : String
  tls : Bool
  remoteAddr : List Char
  request : Request

def Arrival.scheme (r : Arrival) : Scheme := if r.tls then .https else .http

def Arrival.incoming (env : Env) (r : Arrival) : Incoming where
  header h := (r.request.header.get (env.canonicalKey h)).toList
  remoteAddr := r.remoteAddr

/-- The name and the password of a request. -/
def getAuth (req : Request) : String × String :=
  let name := req.header.get "X-Clickhouse-User"
  let pass := req.header.get "X-Clickhouse-Key"
  if name ≠ "" then (name, pass)
  else
    match req.basicAuth with
    | some (name, pass) => (name, pass)
    | none =>
      if req.query.get "user" ≠ "" then (req.query.get "user", req.query.get "password")
      else (defaultUser, "")

def getSessionId (req : Request) : String := req.query.get "session_id"

def getSessionTimeout (req : Request) : Int64 :=
  match Config.atoi (bytes (req.query.get "session_timeout")) with
  | some sessionTimeout => if sessionTimeout > 0 then sessionTimeout else 60
  | none => 60

/-! ## Refusals -/

/-- The errors of `serveHTTP` and `getScope`, with the arguments of their messages. -/
inductive Refusal
  | unsupportedMethod (remoteAddr : List Char) (method : String)
  | metricsNotAllowed (remoteAddr : List Char)
  | pingNotAllowed
  | httpsNotAllowed (remoteAddr : List Char)
  | httpNotAllowed (remoteAddr : List Char)
  | unsupportedPath (remoteAddr : List Char) (path : String)
  | invalidCredentials (name : String)
  | userDeniedHTTP (name : String)
  | userDeniedHTTPS (name : String)
  | userNotAllowed (name : String)
  | clusterUserNotAllowed (name : String)
  | cannotReadQuery
  deriving DecidableEq, Repr

def Refusal.status : Refusal → Nat
  | .unsupportedMethod .. => 405
  | .unsupportedPath .. => 400
  | .cannotReadQuery => 400
  | .invalidCredentials _ => 401
  | _ => 403

/-- `Connection: close` is set. -/
def Refusal.closes : Refusal → Bool
  | .unsupportedMethod .. => true
  | .metricsNotAllowed _ => true
  | .httpsNotAllowed _ => true
  | .httpNotAllowed _ => true
  | .unsupportedPath .. => true
  | _ => false

/-- What `getScope` puts together for a request that may go on. -/
structure Admitted where
  user : User
  cluster : Cluster
  clusterUser : ClusterUser
  sessionId : String
  sessionTimeout : Int64
  remoteAddr : List Char
  requestPacketSize : Nat

/-- How the way of a request ends: an answer to OPTIONS, nothing for the icon, the metrics, a refusal, a
panic, or admission. -/
inductive Outcome
  | options
  | favicon
  | metrics
  | refused (e : Refusal)
  | panics
  | admitted (a : Admitted)

/-! ## `getScope` -/

/-- The next step of the request when its address is in the networks. -/
def within (env : Env) (nets : Networks) (addr : List Char) (e : Refusal) (next : Outcome) : Outcome :=
  match nets.contains env.net addr with
  | none => .panics
  | some false => .refused e
  | some true => next

/-- `getScope`; `order` is the order of iteration over the users. -/
def getScope (env : Env) (rp : ReverseProxy) (order : List User) (tls : Bool) (remoteAddr : List Char)
    (req : Request) : Outcome :=
  let (name, password) := getAuth req
  match rp.getUser order name password with
  -- the cluster of a user is dereferenced whether or not it is there
  | .error _ => .panics
  | .ok r =>
    if !r.found then .refused (.invalidCredentials name)
    else
      match r.u, r.c, r.cu with
      | some u, some c, some cu =>
        if u.denyHTTP && !tls then .refused (.userDeniedHTTP u.name)
        else if u.denyHTTPS && tls then .refused (.userDeniedHTTPS u.name)
        else
          within env u.allowedNetworks remoteAddr (.userNotAllowed u.name) <|
          within env cu.allowedNetworks remoteAddr (.clusterUserNotAllowed cu.name) <|
          match getFullQuery env.codec req with
          | none => .refused .cannotReadQuery
          | some q => .admitted ⟨u, c, cu, getSessionId req, getSessionTimeout req, remoteAddr, q.length⟩
      | _, _, _ => .panics

/-! ## `serveHTTP` -/

def serveHTTP (env : Env) (p : Process) (order : List User) (r : Arrival) : Outcome :=
  if r.method = "OPTIONS" then .options
  else if r.method ≠ "GET" ∧ r.method ≠ "POST" then .refused (.unsupportedMethod r.remoteAddr r.method)
  else if r.path = "/favicon.ico" then .favicon
  else if r.path = "/metrics" then
    -- the address of the connection, whatever the proxy settings are
    within env p.allowedNetworksMetrics r.remoteAddr (.metricsNotAllowed r.remoteAddr) .metrics
  else if r.path = "/" ∨ r.path = "/query" ∨ r.path = pingEndpoint then
    if r.path = pingEndpoint ∧ !p.allowPing then .refused .pingNotAllowed
    else
      let remoteAddr := getRemoteAddr env.net p.proxyHandler.1 p.proxyHandler.2 (r.incoming env)
      let an := if r.tls then p.allowedNetworksHTTPS else p.allowedNetworksHTTP
      let e := if r.tls then Refusal.httpsNotAllowed remoteAddr else Refusal.httpNotAllowed remoteAddr
      within env an remoteAddr e <|
      match p.proxy with
      | none => .panics
      | some rp => getScope env rp order r.tls remoteAddr r.request
  else .refused (.unsupportedPath r.remoteAddr r.path)

/-! ## What an admitted request has passed -/

section Passed

variable {env : Env} {p : Process} {order : List User} {r : Arrival} {a : Admitted}

theorem within_admitted {nets : Networks} {addr : List Char} {e : Refusal} {next : Outcome}
    (h : within env nets addr e next = .admitted a) : nets.contains env.net addr = some true ∧ next = .admitted a := by
  unfold within at h
  split at h
  · cases h
  · cases h
  · rename_i hin
    exact ⟨hin, h⟩

/-- An admitted request in terms of the tables: who was found for its credentials, and whose networks hold
its address. -/
structure Passed (env : Env) (rp : ReverseProxy) (order : List User) (tls : Bool) (req : Request) (a : Admitted) :
    Prop where
  found : ∃ x, rp.getUser order (getAuth req).1 (getAuth req).2 = .ok x ∧ x.found = true ∧ x.u = some a.user ∧
    x.c = some a.cluster ∧ x.cu = some a.clusterUser
  http : a.user.denyHTTP = true → tls = true
  https : a.user.denyHTTPS = true → tls = false
  user : a.user.allowedNetworks.contains env.net a.remoteAddr = some true
  clusterUser : a.clusterUser.allowedNetworks.contains env.net a.remoteAddr = some true

theorem getScope_admitted {rp : ReverseProxy} {tls : Bool} {remoteAddr : List Char} {req : Request}
    (h : getScope env rp order tls remoteAddr req = .admitted a) :
    Passed env rp order tls req a ∧ a.remoteAddr = remoteAddr := by
  unfold getScope at h
  dsimp only at h
  split at h
  · cases h
  · rename_i x hx
    split at h
    · cases h
    rename_i hfound
    split at h
    · rename_i u c cu hu hc hcu
      split at h
      · cases h
      rename_i hhttp
      split at h
      · cases h
      rename_i hhttps
      -- the networks of the user come before those of the cluster user
      obtain ⟨huser, h⟩ := within_admitted h
      obtain ⟨hclusterUser, h⟩ := within_admitted h
      split at h
      · cases h
      · cases h
        refine ⟨⟨⟨x, hx, by simpa using hfound, hu, hc, hcu⟩, fun hd => ?_, fun hd => ?_, huser, hclusterUser⟩, rfl⟩
        · have hdeny : u.denyHTTP = true := hd
          simpa [hdeny] using hhttp
        · have hdeny : u.denyHTTPS = true := hd
          simpa [hdeny] using hhttps
    · cases h

/-- The networks a listener is limited to. -/
def networksOf (p : Process) : Scheme → Networks
  | .http => p.allowedNetworksHTTP
  | .https => p.allowedNetworksHTTPS

theorem serveHTTP_admitted (h : serveHTTP env p order r = .admitted a) :
    ∃ rp, p.proxy = some rp ∧ Passed env rp order r.tls r.request a ∧
      a.remoteAddr = getRemoteAddr env.net p.proxyHandler.1 p.proxyHandler.2 (r.incoming env) ∧
      (networksOf p r.scheme).contains env.net a.remoteAddr = some true := by
  unfold serveHTTP at h
  split at h
  · cases h
  split at h
  · cases h
  split at h
  · cases h
  split at h
  · cases (within_admitted h).2
  split at h
  · split at h
    · cases h
    · -- the only path that is proxied: the networks of the listener are asked first
      obtain ⟨hin, h⟩ := within_admitted h
      split at h
      · cases h
      · rename_i rp hrp
        obtain ⟨hpassed, haddr⟩ := getScope_admitted h
        refine ⟨rp, hrp, hpassed, haddr, ?_⟩
        rw [haddr]
        unfold networksOf Arrival.scheme
        cases htls : r.tls with
        | true => simpa [htls] using hin
        | false => simpa [htls] using hin
  · cases h

end Passed

/-! ## Reloads -/

/-- The process, and the file whose configuration was applied last. -/
structure Served where
  process : Process
  inForce : Option Source

/-- `reloadConfig`: nothing happens when the file cannot be loaded; what a failed `applyConfig` leaves, it
leaves; a panic is the end of the process. -/
def Served.reload (net : NetParsers) (s : Served) (call : World × Source) : Option Served :=
  match call.2.load net with
  | .error _ => some s
  | .ok out =>
    match Routing.applyConfig call.1 s.process out.config with
    | (_, some .panic) => none
    | (p, some (.error _)) => some { s with process := p }
    | (p, none) => some ⟨p, some call.2⟩

def Served.Initial (s : Served) : Prop := s.process = Routing.started ∧ s.inForce = none

/-- What a user of the tables has of the user of the configuration it was made of. -/
structure Guards (cfg : Config.User) (u : User) : Prop where
  password : u.password = cfg.password
  denyHTTP : u.denyHTTP = cfg.denyHTTP
  denyHTTPS : u.denyHTTPS = cfg.denyHTTPS
  allowedNetworks : u.allowedNetworks = cfg.allowedNetworks

/-- The tables and the networks of the listeners are those of the file in force. -/
structure Served.Applied (net : NetParsers) (s : Served) (src : Source) (out : Loaded) : Prop where
  inForce : s.inForce = some src
  loaded : src.load net = .ok out
  http : s.process.allowedNetworksHTTP = out.config.httpNetworks
  https : s.process.allowedNetworksHTTPS = out.config.httpsNetworks
  users : ∀ name u, s.process.tables.users.lookup name = some u → ∃ x ∈ out.config.users, Guards x u

section Runs

variable {net : NetParsers} {s s' : Served}

theorem newUser_guards {up up' : Routing.UsersProfile} {cfg : Config.User} {u : User}
    (h : up.newUser cfg = .ok (up', u)) : Guards cfg u := by
  unfold Routing.UsersProfile.newUser at h
  split at h
  · cases h
  split at h
  · cases h
  obtain ⟨cc, _, h⟩ := bind_ok h
  obtain ⟨params, _, h⟩ := bind_ok h
  cases h
  exact ⟨rfl, rfl, rfl, rfl⟩

/-- The users that a successful load leaves were made of those of the configuration. -/
theorem applyConfig_guards {w : World} {rp : ReverseProxy} {next : Nat} {cfg : Config}
    (h : (rp.applyConfig w next cfg).err = none) (name : String) (u : User)
    (hu : (rp.applyConfig w next cfg).rp.users.lookup name = some u) : ∃ x ∈ cfg.users, Guards x u := by
  obtain ⟨x, hx, up, up', hnew⟩ := ReverseProxy.applyConfig_made h hu
  exact ⟨x, hx, newUser_guards hnew⟩

/-- The proxy a configuration is applied to has the tables of the process or none. -/
theorem target_tables (p : Process) (cfg : Config) :
    (p.target cfg).tables = p.tables ∨ (p.target cfg).tables.users = ∅ := by
  unfold Process.target Process.tables
  cases p.proxy with
  | none => exact .inr rfl
  | some rp =>
    dsimp only
    split
    · exact .inr rfl
    · exact .inl rfl

/-- What `applyConfig` of the process leaves: the networks of the configuration with users made of its
users, or the old networks with the old users or with none. -/
theorem applyConfig_cases (w : World) (p : Process) (cfg : Config) :
    ((Routing.applyConfig w p cfg).2 = none ∧
      (Routing.applyConfig w p cfg).1.allowedNetworksHTTP = cfg.httpNetworks ∧
      (Routing.applyConfig w p cfg).1.allowedNetworksHTTPS = cfg.httpsNetworks ∧
      ∀ name u, (Routing.applyConfig w p cfg).1.tables.users.lookup name = some u → ∃ x ∈ cfg.users, Guards x u) ∨
    ((Routing.applyConfig w p cfg).2.isSome ∧
      (Routing.applyConfig w p cfg).1.allowedNetworksHTTP = p.allowedNetworksHTTP ∧
      (Routing.applyConfig w p cfg).1.allowedNetworksHTTPS = p.allowedNetworksHTTPS ∧
      ((Routing.applyConfig w p cfg).1.tables = p.tables ∨ (Routing.applyConfig w p cfg).1.tables.users = ∅)) := by
  cases herr : (Routing.applyConfig w p cfg).2 with
  | some e =>
    -- a load that fails leaves the tables as they were, or those of a new proxy, which are empty
    have htables := Routing.applyConfig_failed_tables herr
    refine .inr ⟨rfl, ?_, ?_, by rw [htables]; exact target_tables p cfg⟩
    all_goals
      rw [Routing.applyConfig_snd] at herr
      simp only [Routing.applyConfig, herr]
  | none =>
    rw [Routing.applyConfig_snd] at herr
    refine .inl ⟨rfl, ?_, ?_, fun name u hu => ?_⟩
    · simp only [Routing.applyConfig, herr]
    · simp only [Routing.applyConfig, herr]
    · rw [Process.tables, Routing.applyConfig_fst_proxy] at hu
      exact applyConfig_guards herr name u hu

/-- Whatever was loaded and applied or not: nobody is in the tables, or the file in force is applied. -/
theorem Served.applied_reach (h : Steps.Reach (Served.reload net) Served.Initial s) :
    s.process.tables.users = ∅ ∨ ∃ src out, s.Applied net src out := by
  refine h.invariant (P := fun s => s.process.tables.users = ∅ ∨ ∃ src out, s.Applied net src out) (fun s hs => ?_)
    fun s call s' hs hst _ => ?_
  · rw [hs.1]
    exact .inl rfl
  · unfold Served.reload at hst
    cases hload : call.2.load net with
    | error e =>
      rw [hload] at hst
      cases hst
      exact hs
    | ok out =>
      rw [hload] at hst
      dsimp only at hst
      -- a configuration that was read may still fail to be applied
      rcases happly : Routing.applyConfig call.1 s.process out.config with ⟨p, _ | e | _⟩
      · rw [happly] at hst
        cases hst
        obtain ⟨-, hhttp, hhttps, husers⟩ | ⟨herr, -⟩ := applyConfig_cases call.1 s.process out.config
        · rw [happly] at hhttp hhttps husers
          exact .inr ⟨call.2, out, rfl, hload, hhttp, hhttps, husers⟩
        · rw [happly] at herr
          cases herr
      · rw [happly] at hst
        cases hst
        obtain ⟨herr, -⟩ | ⟨-, hhttp, hhttps, htables⟩ := applyConfig_cases call.1 s.process out.config
        · rw [happly] at herr
          cases herr
        · rw [happly] at hhttp hhttps htables
          dsimp only at hhttp hhttps htables ⊢
          rcases htables with htables | hempty
          · -- the tables and the networks are the old ones
            rw [htables]
            refine hs.imp_right fun ⟨src, out, happlied⟩ => ⟨src, out, happlied.inForce, happlied.loaded,
              hhttp.trans happlied.http, hhttps.trans happlied.https, ?_⟩
            rw [htables]
            exact happlied.users
          · exact .inl hempty
      · rw [happly] at hst
        cases hst

end Runs

/-! ## No unprotected access -/

/-- The networks are limited, and the address is in one of them. -/
def Inside (net : NetParsers) (nets : Networks) (addr : List Char) : Prop :=
  nets ≠ [] ∧ ∃ ip, addressOf net addr = some ip ∧ ∃ n ∈ nets, n.contains ip.as16 = true

theorem inside_of_contains {net : NetParsers} {nets : Networks} {addr : List Char} (hne : nets ≠ [])
    (h : nets.contains net addr = some true) : Inside net nets addr := by
  refine ⟨hne, ?_⟩
  rw [ProxyHandler.contains_eq_addressOf net (by simpa using hne)] at h
  obtain ⟨ip, hip, hany⟩ := Option.map_eq_some_iff.1 h
  exact ⟨ip, hip, by simpa using hany⟩

theorem findWildcarded_user {rp : ReverseProxy} {name password : String} {order : List User} {x : Lookup} {u : User}
    (h : rp.findWildcardedUserInformation name password order = .ok x) (hfound : x.found = true) (hu : x.u = some u) :
    u ∈ order ∧ u.isWildcarded = true := by
  rcases rp.findWildcardedUserInformation_searched name password order with
    hnobody | ⟨v, hv, hwild, hgen | ⟨-, hpanic⟩⟩
  · cases h.symm.trans hnobody
    cases hfound
  · rw [hgen, ReverseProxy.generateWildcardedUserInformation] at h
    split at h
    · cases h
    · split at h
      · cases h
        cases hfound
      · cases h
        cases hu
        exact ⟨hv, hwild⟩
  · cases h.symm.trans hpanic

/-- Who is found is in the tables, and has the password unless it is wildcarded. -/
theorem getUser_user {rp : ReverseProxy} {order : List User} (horder : order.Perm (userValues rp.users))
    {name password : String} {x : Lookup} {u : User} (h : rp.getUser order name password = .ok x)
    (hfound : x.found = true) (hu : x.u = some u) :
    (∃ key, rp.users.lookup key = some u) ∧ (u.isWildcarded = false → password = u.password) := by
  unfold ReverseProxy.getUser at h
  split at h
  · rename_i v hv
    split at h
    · cases h
    · cases h
      cases hu
      exact ⟨⟨name, hv⟩, fun _ => by simpa using (beq_iff_eq.1 hfound).symm⟩
  · split at h
    · cases h
      cases hfound
    split at h
    · -- a wildcarded user stands for the name, and its own password is not asked for
      obtain ⟨hmem, hwild⟩ := findWildcarded_user h hfound hu
      refine ⟨Routing.exists_lookup_of_mem_userValues (horder.mem_iff.1 hmem), fun hplain => ?_⟩
      rw [hwild] at hplain
      cases hplain
    · cases h
      cases hfound

/-- The networks of a listener as the file in force has them. -/
theorem Served.Applied.listener {net : NetParsers} {s : Served} {src : Source} {out : Loaded} {reg : Config.NetworkReg}
    (h : s.Applied net src out)
    (hhttp : Config.groupToNetwork net reg src.file.http.networksOrGroups = .ok out.config.httpNetworks)
    (hhttps : Config.groupToNetwork net reg src.file.https.networksOrGroups = .ok out.config.httpsNetworks)
    (scheme : Scheme) :
    Config.groupToNetwork net reg (src.file.listener scheme).networksOrGroups = .ok (networksOf s.process scheme) := by
  cases scheme with
  | http => rw [networksOf, h.http]; exact hhttp
  | https => rw [networksOf, h.https]; exact hhttps

/-- After any sequence of reloads, whether or not each could be loaded and applied: a request that is
admitted over a listener of the file in force, without `hack_me_please`, comes from an address in the
networks of that listener or in those of its user, or it came over HTTPS, as a user that has a password,
which it has given unless the user is wildcarded. -/
theorem admitted_is_protected {env : Env} {s : Served} (h : Steps.Reach (Served.reload env.net) Served.Initial s)
    {src : Source} (hsrc : s.inForce = some src) (hhack : src.hackMePlease = false) {r : Arrival}
    (hlisten : (src.file.listener r.scheme).listenAddr ≠ "") {order : List User}
    (horder : order.Perm (userValues s.process.tables.users)) {a : Admitted}
    (hadmitted : serveHTTP env s.process order r = .admitted a) :
    Inside env.net (networksOf s.process r.scheme) a.remoteAddr ∨ Inside env.net a.user.allowedNetworks a.remoteAddr ∨
    (r.tls = true ∧ a.user.password ≠ "" ∧
      (a.user.isWildcarded = false → (getAuth r.request).2 = a.user.password)) := by
  obtain ⟨rp, hrp, hpassed, -, hlistener⟩ := serveHTTP_admitted hadmitted
  obtain ⟨x, hget, hfound, hxu, -, -⟩ := hpassed.found
  have htables : s.process.tables = rp.tables := by rw [Process.tables, hrp]; rfl
  rw [htables] at horder
  obtain ⟨⟨key, hkey⟩, hpassword⟩ := getUser_user horder hget hfound hxu
  rcases Served.applied_reach h with hempty | ⟨src', out, happlied⟩
  · rw [htables] at hempty
    change rp.users = ∅ at hempty
    simp [hempty] at hkey
  · cases Option.some.inj (hsrc.symm.trans happlied.inForce)
    obtain ⟨hload, hcheck⟩ := Config.Source.load_ok happlied.loaded
    obtain ⟨reg, hreg, hhttp, hhttps, husers⟩ := Config.loadFile_networks hload
    have hpopulated := Config.networkReg_populated src.groups_valid (fun _ _ hnone => by simp at hnone) hreg
    obtain ⟨y, hy, hguards⟩ := happlied.users key a.user (by rw [htables]; exact hkey)
    obtain ⟨u, hu, hbecomes⟩ := husers y hy
    by_cases hown : u.networksOrGroups = []
    · by_cases hlist : (src.file.listener r.scheme).networksOrGroups = []
      · -- nothing limits the address: the check has asked for a password or denied the listener
        obtain ⟨hhttp, hhttps⟩ := Config.Source.checkVulnerabilities_user hcheck hhack hu hown
        rw [← hbecomes.password, ← hguards.password, ← hbecomes.denyHTTP, ← hguards.denyHTTP] at hhttp
        rw [← hbecomes.password, ← hguards.password, ← hbecomes.denyHTTPS, ← hguards.denyHTTPS] at hhttps
        unfold Arrival.scheme at hlisten hlist
        cases htls : r.tls with
        | false =>
          rw [htls] at hlisten hlist
          have := hpassed.http (hhttp hlisten hlist).2
          rw [htls] at this
          cases this
        | true =>
          rw [htls] at hlisten hlist
          rcases hhttps hlisten hlist with hpass | hdeny
          · exact .inr (.inr ⟨rfl, hpass, hpassword⟩)
          · have := hpassed.https hdeny
            rw [htls] at this
            cases this
      · refine .inl (inside_of_contains ?_ hlistener)
        rwa [Ne, Config.groupToNetwork_eq_nil_iff hpopulated (happlied.listener hhttp hhttps r.scheme)]
    · refine .inr (.inl (inside_of_contains ?_ hpassed.user))
      rwa [hguards.allowedNetworks, Ne, Config.groupToNetwork_eq_nil_iff hpopulated hbecomes.allowedNetworks]

/-- An HTTPS listener without networks, and the user `u` with a password. -/
def httpsSource : Source where
  file :=
    { http := ⟨"", [], 0⟩
      https := ⟨":8443", [], 0⟩
      metricsNetworksOrGroups := []
      networkGroups := []
      clusters := (Routing.smallConfig 2 "c").clusters.map fun c => ⟨c, c.clusterUsers.map fun cu => ⟨cu, []⟩⟩
      users := (Routing.smallConfig 2 "c").users.map fun u => ⟨u, []⟩
      logDebug := false
      maxErrorReasonSize := 0
      caches := []
      paramGroups := []
      connectionPool := ⟨2, 2⟩
      allowPing := false
      proxyEnable := false
      proxyHeader := "" }
  hackMePlease := false
  groups_valid := by simp

/-- A query of `u` over HTTPS. -/
def httpsArrival : Arrival where
  method := "POST"
  path := "/"
  tls := true
  remoteAddr := "10.1.2.3".toList
  request := ⟨.post, "/", "", "", ∅, ∅, some ("u", "p"), .nil, fun h => absurd h (by decide)⟩

def plainEnv : Env := ⟨Config.sampleNet, id, ⟨fun _ => none, fun _ => none⟩⟩

def Outcome.admits : Outcome → Bool
  | .admitted _ => true
  | _ => false

theorem admitted_is_protected_https :
    ∃ s a, Steps.Reach (Served.reload plainEnv.net) Served.Initial s ∧ s.inForce = some httpsSource ∧
      (httpsSource.file.listener httpsArrival.scheme).listenAddr ≠ "" ∧
      serveHTTP plainEnv s.process (userValues s.process.tables.users) httpsArrival = .admitted a ∧
      (Inside plainEnv.net (networksOf s.process httpsArrival.scheme) a.remoteAddr ∨
        Inside plainEnv.net a.user.allowedNetworks a.remoteAddr ∨
        (httpsArrival.tls = true ∧ a.user.password ≠ "" ∧
          (a.user.isWildcarded = false → (getAuth httpsArrival.request).2 = a.user.password))) := by
  obtain ⟨s, hs, hsrc, hadmits⟩ : ∃ s,
      Served.reload plainEnv.net ⟨Routing.started, none⟩ (Routing.calmWorld, httpsSource) = some s ∧
      s.inForce = some httpsSource ∧
      (serveHTTP plainEnv s.process (userValues s.process.tables.users) httpsArrival).admits = true :=
    ⟨_, rfl, rfl, by decide⟩
  have hreach : Steps.Reach (Served.reload plainEnv.net) Served.Initial s := .step (.init ⟨rfl, rfl⟩) hs trivial
  cases ha : serveHTTP plainEnv s.process (userValues s.process.tables.users) httpsArrival with
  | admitted a =>
    exact ⟨s, a, hreach, hsrc, by decide, ha,
      admitted_is_protected hreach hsrc rfl (by decide) (.refl _) ha⟩
  | _ =>
    rw [ha] at hadmits
    cases hadmits

end Chproxy.Gate
