/-
The security check of a configuration (`checkVulnerabilities` and `validateSecurity` in
`config/config.go`) and `LoadFile` with it: a user must be limited by networks, its own or those of the
listener, or be denied that listener; over HTTPS a password will do.
-/
import Chproxy.Config.Defaults

namespace Chproxy.Config

open Fallible

/-! ## `checkVulnerabilities` -/

/-- The errors of `validateSecurity`, with the name of the user. -/
inductive SecurityError
  | httpsNotLimited (name : String)
  | httpNotLimited (name : String)
  | passwordCouldBeStolen (name : String)
  deriving DecidableEq, Repr

def User.validateSecurity (u : User) (hasHTTP hasHTTPS : Bool) : Except SecurityError Unit :=
  if u.password.length = 0 ∧ !u.denyHTTPS ∧ hasHTTPS then .error (.httpsNotLimited u.name)
  else if u.password.length = 0 ∧ !u.denyHTTP ∧ hasHTTP then .error (.httpNotLimited u.name)
  -- `deny_http` is not asked for here
  else if 0 < u.password.length ∧ hasHTTP then .error (.passwordCouldBeStolen u.name)
  else .ok ()

/-- The listener is there and lets every address in. -/
def Listener.unlimited (l : Listener) : Bool :=
  decide (0 < l.listenAddr.length) && decide (l.networksOrGroups.length = 0)

def checkUsers (hasHTTP hasHTTPS : Bool) : List (Restricted User) → Except SecurityError Unit
  | [] => .ok ()
  | u :: us =>
    if u.networksOrGroups.length ≠ 0 then checkUsers hasHTTP hasHTTPS us
    else do
      u.entry.validateSecurity hasHTTP hasHTTPS
      checkUsers hasHTTP hasHTTPS us

/-- A file as it comes out of the unmarshaller, whose checks the network groups have passed. -/
structure Source where
  file : File
  hackMePlease : Bool
  groups_valid : ∀ ng ∈ file.networkGroups, ng.validate = .ok ()

def Source.checkVulnerabilities (src : Source) : Except SecurityError Unit :=
  if src.hackMePlease then .ok ()
  else checkUsers src.file.http.unlimited src.file.https.unlimited src.file.users

inductive LoadError
  | network (e : NetworkError)
  | securityBreach (e : SecurityError)
  deriving DecidableEq, Repr

/-- `LoadFile`, from the registry of the network groups on. The check reads no field that `setDefaults`
changes. -/
def Source.load (net : NetParsers) (src : Source) : Except LoadError Loaded := do
  let out ← (loadFile net src.file).mapError .network
  src.checkVulnerabilities.mapError .securityBreach
  .ok out

/-! ## What the check leaves -/

theorem User.validateSecurity_ok_iff {u : User} {hasHTTP hasHTTPS : Bool} :
    u.validateSecurity hasHTTP hasHTTPS = .ok () ↔
      (hasHTTP = true → u.password = "" ∧ u.denyHTTP = true) ∧
      (hasHTTPS = true → u.password ≠ "" ∨ u.denyHTTPS = true) := by
  unfold validateSecurity
  by_cases hpass : u.password = ""
  · cases hasHTTP <;> cases hasHTTPS <;> cases u.denyHTTP <;> cases u.denyHTTPS <;> simp [hpass]
  · have hlen : u.password.length ≠ 0 := by simpa using hpass
    cases hasHTTP <;> simp [hpass, hlen, Nat.pos_of_ne_zero hlen]

theorem checkUsers_ok_iff {hasHTTP hasHTTPS : Bool} : ∀ {us : List (Restricted User)},
    checkUsers hasHTTP hasHTTPS us = .ok () ↔
      ∀ u ∈ us, u.networksOrGroups = [] → u.entry.validateSecurity hasHTTP hasHTTPS = .ok ()
  | [] => by simp [checkUsers]
  | u :: us => by
    rw [List.forall_mem_cons, ← checkUsers_ok_iff]
    conv_lhs => rw [checkUsers]
    by_cases hnets : u.networksOrGroups = []
    · rw [if_neg (by simp [hnets])]
      cases hu : u.entry.validateSecurity hasHTTP hasHTTPS with
      | error e => simp [hnets, bind, Except.bind]
      | ok _ => simp [hnets, bind, Except.bind]
    · rw [if_pos (by simpa using hnets)]
      simp [hnets]

theorem mapError_ok {ε ε' α : Type} {f : ε → ε'} {x : Except ε α} {a : α} (h : x.mapError f = .ok a) : x = .ok a := by
  cases x with
  | error e => cases h
  | ok b => cases h; rfl

theorem Listener.unlimited_iff {l : Listener} : l.unlimited = true ↔ l.listenAddr ≠ "" ∧ l.networksOrGroups = [] := by
  simp [unlimited, Nat.pos_iff_ne_zero]

theorem Source.load_ok {net : NetParsers} {src : Source} {out : Loaded} (h : src.load net = .ok out) :
    loadFile net src.file = .ok out ∧ src.checkVulnerabilities = .ok () := by
  obtain ⟨out', hload, h⟩ := bind_ok h
  obtain ⟨_, hcheck, h⟩ := bind_ok h
  cases h
  exact ⟨mapError_ok hload, mapError_ok hcheck⟩

/-- A user that no list of networks limits, neither its own nor that of the listener. -/
theorem Source.checkVulnerabilities_user {src : Source} (h : src.checkVulnerabilities = .ok ())
    (hhack : src.hackMePlease = false) {u : Restricted User} (hu : u ∈ src.file.users)
    (hown : u.networksOrGroups = []) :
    (src.file.http.listenAddr ≠ "" → src.file.http.networksOrGroups = [] →
      u.entry.password = "" ∧ u.entry.denyHTTP = true) ∧
    (src.file.https.listenAddr ≠ "" → src.file.https.networksOrGroups = [] →
      u.entry.password ≠ "" ∨ u.entry.denyHTTPS = true) := by
  rw [checkVulnerabilities, if_neg (by simp [hhack]), checkUsers_ok_iff] at h
  obtain ⟨hhttp, hhttps⟩ := User.validateSecurity_ok_iff.1 (h u hu hown)
  exact ⟨fun hlisten hlist => hhttp (Listener.unlimited_iff.2 ⟨hlisten, hlist⟩),
    fun hlisten hlist => hhttps (Listener.unlimited_iff.2 ⟨hlisten, hlist⟩)⟩

/-! ## What is loaded -/

/-- A user of the file and what became of it, with the networks its list stands for. -/
structure Restricted.Becomes (net : NetParsers) (reg : NetworkReg) (u : Restricted User) (u' : User) : Prop where
  password : u'.password = u.entry.password
  denyHTTP : u'.denyHTTP = u.entry.denyHTTP
  denyHTTPS : u'.denyHTTPS = u.entry.denyHTTPS
  allowedNetworks : groupToNetwork net reg u.networksOrGroups = .ok u'.allowedNetworks

theorem setUser_becomes {net : NetParsers} {reg : NetworkReg} {t t' : Duration} {u : Restricted User} {u' : User}
    (h : setUser net reg t u = .ok (t', u')) : u.Becomes net reg u' := by
  obtain ⟨nets, hnets, h⟩ := bind_ok h
  cases h
  unfold User.setDefaults
  split
  · exact ⟨rfl, rfl, rfl, hnets⟩
  · exact ⟨rfl, rfl, rfl, hnets⟩

/-- The networks of the listeners and of the users of what is loaded. -/
theorem loadFile_networks {net : NetParsers} {file : File} {out : Loaded} (h : loadFile net file = .ok out) :
    ∃ reg, networkReg ∅ file.networkGroups = .ok reg ∧
      groupToNetwork net reg file.http.networksOrGroups = .ok out.config.httpNetworks ∧
      groupToNetwork net reg file.https.networksOrGroups = .ok out.config.httpsNetworks ∧
      ∀ u' ∈ out.config.users, ∃ u ∈ file.users, u.Becomes net reg u' := by
  unfold loadFile at h
  obtain ⟨reg, hreg, h⟩ := bind_ok h
  obtain ⟨httpNetworks, hhttp, h⟩ := bind_ok h
  obtain ⟨httpsNetworks, hhttps, h⟩ := bind_ok h
  obtain ⟨metricsNetworks, _, h⟩ := bind_ok h
  obtain ⟨⟨t₁, clusters⟩, _, h⟩ := bind_ok h
  obtain ⟨⟨t₂, users⟩, husers, h⟩ := bind_ok h
  cases h
  refine ⟨reg, hreg, hhttp, hhttps, fun u' hu' => ?_⟩
  obtain ⟨u, hu, s, s', hset⟩ := mapAccumM_mem husers u' hu'
  exact ⟨u, hu, setUser_becomes hset⟩

end Chproxy.Config
