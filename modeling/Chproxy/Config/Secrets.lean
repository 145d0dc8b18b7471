/-
What of the passwords reaches the log: `Config.String` (`config/config.go`), which marshals a copy of the
configuration without sensitive information. Stated for two configurations that differ in passwords
only: do they give the same text?
-/
import Chproxy.Config.Types
import Mathlib.Data.List.Forall2

namespace Chproxy

open Config

/-! ## `Config.String` -/

namespace Config

def pswPlaceHolder : String := "XXX"

/-- Only a user that has a name is masked. -/
def KillQueryUser.withoutSensitiveInfo (k : KillQueryUser) : KillQueryUser :=
  if 0 < k.name.length then { k with password := pswPlaceHolder } else k

/-- The credentials of the heartbeat are copied as they are. -/
def Cluster.withoutSensitiveInfo (c : Cluster) : Cluster :=
  { c with
    killQueryUser := c.killQueryUser.withoutSensitiveInfo
    clusterUsers := c.clusterUsers.map fun cu => { cu with password := pswPlaceHolder } }

def RedisCacheConfig.withoutSensitiveInfo (r : RedisCacheConfig) : RedisCacheConfig :=
  if 0 < r.password.length then { r with password := pswPlaceHolder } else r

def withoutSensitiveInfo (c : Config) : Config :=
  { c with
    users := c.users.map fun u => { u with password := pswPlaceHolder }
    clusters := c.clusters.map Cluster.withoutSensitiveInfo
    caches := c.caches.map fun cc => { cc with redis := cc.redis.withoutSensitiveInfo } }

/-- The text of a configuration; a panic when it cannot be marshalled. -/
def string (marshal : Config → Except String String) (c : Config) : Option String :=
  match marshal c.withoutSensitiveInfo with
  | .ok b => some b
  | .error _ => none

/-! ## Configurations that differ in passwords only -/

/-- The same password, or two that are not empty. -/
def SamePassword (p q : String) : Prop := p = q ∨ (p ≠ "" ∧ q ≠ "")

def User.SameButPassword (u u' : User) : Prop :=
  u' = { u with password := u'.password } ∧ SamePassword u.password u'.password

def ClusterUser.SameButPassword (cu cu' : ClusterUser) : Prop :=
  cu' = { cu with password := cu'.password } ∧ SamePassword cu.password cu'.password

def KillQueryUser.SameButPassword (k k' : KillQueryUser) : Prop :=
  k' = { k with password := k'.password } ∧ SamePassword k.password k'.password

def HeartBeat.SameButPassword (hb hb' : HeartBeat) : Prop :=
  hb' = { hb with password := hb'.password } ∧ SamePassword hb.password hb'.password

def RedisCacheConfig.SameButPassword (r r' : RedisCacheConfig) : Prop :=
  r' = { r with password := r'.password } ∧ SamePassword r.password r'.password

structure Cluster.SameButPasswords (c c' : Cluster) : Prop where
  rest : c' = { c with
    clusterUsers := c'.clusterUsers, killQueryUser := c'.killQueryUser, heartBeat := c'.heartBeat }
  clusterUsers : List.Forall₂ ClusterUser.SameButPassword c.clusterUsers c'.clusterUsers
  killQueryUser : c.killQueryUser.SameButPassword c'.killQueryUser
  heartBeat : c.heartBeat.SameButPassword c'.heartBeat

structure Cache.SameButPassword (cc cc' : Cache) : Prop where
  rest : cc' = { cc with redis := cc'.redis }
  redis : cc.redis.SameButPassword cc'.redis

/-- The same shape and the same fields, except for the values of non-empty passwords. -/
structure SameButPasswords (c c' : Config) : Prop where
  rest : c' = { c with clusters := c'.clusters, users := c'.users, caches := c'.caches }
  clusters : List.Forall₂ Cluster.SameButPasswords c.clusters c'.clusters
  users : List.Forall₂ User.SameButPassword c.users c'.users
  caches : List.Forall₂ Cache.SameButPassword c.caches c'.caches

/-- The passwords of two clusters that are copied as they are are the same: that of the heartbeat, and
that of a `kill_query_user` without a name. -/
def Cluster.SameShown (c c' : Cluster) : Prop :=
  c.heartBeat.password = c'.heartBeat.password ∧
    (c.killQueryUser.name = "" → c.killQueryUser.password = c'.killQueryUser.password)

/-! ## What the copy keeps -/

theorem map_eq_map_iff_of_forall₂ {α β : Type} {f : α → β} {R P : α → α → Prop}
    (hf : ∀ a b, R a b → (f a = f b ↔ P a b)) {l l' : List α} (h : List.Forall₂ R l l') :
    l.map f = l'.map f ↔ List.Forall₂ P l l' := by
  induction h with
  | nil => simp
  | cons hab _ ih => simp [hf _ _ hab, ih]

theorem map_eq_map_of_forall₂ {α β : Type} {f : α → β} {R : α → α → Prop} (hf : ∀ a b, R a b → f a = f b)
    {l l' : List α} (h : List.Forall₂ R l l') : l.map f = l'.map f :=
  (map_eq_map_iff_of_forall₂ (P := R) (fun a b hab => iff_of_true (hf a b hab) hab) h).2 h

theorem length_pos_of_ne {p : String} (h : p ≠ "") : 0 < p.length := by
  rw [Nat.pos_iff_ne_zero]
  simpa using h

theorem KillQueryUser.SameButPassword.copy_eq_iff {k k' : KillQueryUser} (h : k.SameButPassword k') :
    k.withoutSensitiveInfo = k'.withoutSensitiveInfo ↔ (k.name = "" → k.password = k'.password) := by
  obtain ⟨hrest, -⟩ := h
  obtain ⟨name, password⟩ := k
  obtain ⟨name', password'⟩ := k'
  cases hrest
  by_cases hname : name = ""
  · subst hname
    simp [withoutSensitiveInfo]
  · simp [withoutSensitiveInfo, length_pos_of_ne hname, hname]

theorem RedisCacheConfig.SameButPassword.copy_eq {r r' : RedisCacheConfig} (h : r.SameButPassword r') :
    r.withoutSensitiveInfo = r'.withoutSensitiveInfo := by
  obtain ⟨hrest, heq | ⟨hne, hne'⟩⟩ := h
  · rw [hrest, ← heq]
  · unfold withoutSensitiveInfo
    rw [if_pos (length_pos_of_ne hne), if_pos (length_pos_of_ne hne'), hrest]

theorem Cluster.SameButPasswords.copy_eq_iff {c c' : Cluster} (h : c.SameButPasswords c') :
    c.withoutSensitiveInfo = c'.withoutSensitiveInfo ↔ c.SameShown c' := by
  have husers : (c.clusterUsers.map fun cu => { cu with password := pswPlaceHolder }) =
      c'.clusterUsers.map fun cu => { cu with password := pswPlaceHolder } :=
    map_eq_map_of_forall₂ (fun cu cu' hcu => by rw [hcu.1]) h.clusterUsers
  have hhb : c.heartBeat = c'.heartBeat ↔ c.heartBeat.password = c'.heartBeat.password := by
    refine ⟨fun heq => by rw [heq], fun heq => ?_⟩
    rw [h.heartBeat.1, ← heq]
  have hkill := h.killQueryUser.copy_eq_iff
  unfold SameShown
  rw [← hhb, ← hkill, h.rest]
  simp only [withoutSensitiveInfo, Cluster.mk.injEq, true_and, husers, and_true]
  exact and_comm

theorem SameButPasswords.copy_eq_iff {c c' : Config} (h : c.SameButPasswords c') :
    c.withoutSensitiveInfo = c'.withoutSensitiveInfo ↔ List.Forall₂ Cluster.SameShown c.clusters c'.clusters := by
  have husers : (c.users.map fun u => { u with password := pswPlaceHolder }) =
      c'.users.map fun u => { u with password := pswPlaceHolder } :=
    map_eq_map_of_forall₂ (fun u u' hu => by rw [hu.1]) h.users
  have hcaches : (c.caches.map fun cc => { cc with redis := cc.redis.withoutSensitiveInfo }) =
      c'.caches.map fun cc => { cc with redis := cc.redis.withoutSensitiveInfo } :=
    map_eq_map_of_forall₂ (fun cc cc' hcc => by rw [hcc.redis.copy_eq, hcc.rest]) h.caches
  have hclusters : c.clusters.map Cluster.withoutSensitiveInfo = c'.clusters.map Cluster.withoutSensitiveInfo ↔
      List.Forall₂ Cluster.SameShown c.clusters c'.clusters :=
    map_eq_map_iff_of_forall₂ (fun _ _ hc => hc.copy_eq_iff) h.clusters
  rw [← hclusters, h.rest]
  simp only [withoutSensitiveInfo, Config.mk.injEq, husers, hcaches, and_true]

/-! ## The text -/

/-- Two configurations that differ in passwords only give the same text, however it is marshalled, exactly
when the passwords of their heartbeats are the same, and those of a `kill_query_user` without a name. -/
theorem text_hides_passwords_iff {c c' : Config} (h : c.SameButPasswords c') :
    (∀ marshal, c.string marshal = c'.string marshal) ↔
      List.Forall₂ Cluster.SameShown c.clusters c'.clusters := by
  rw [← h.copy_eq_iff]
  constructor
  · intro htext
    by_contra hne
    -- a marshaller that tells the two copies apart
    have := htext fun x => .ok (if x = c.withoutSensitiveInfo then "first" else "second")
    simp [string, Ne.symm hne] at this
  · intro hcopy marshal
    rw [string, string, hcopy]

/-- A cluster whose heartbeat is a query with credentials of its own, and a user. -/
def watchedConfig (userPassword heartBeatPassword : String) : Config where
  clusters :=
    [{ name := "c", scheme := "http", nodes := ["n"], replicas := []
       clusterUsers := [⟨"default", "", 0, 0, 0, 0, 0, 0, 0, []⟩], killQueryUser := ⟨"", ""⟩
       heartBeat := ⟨5000000000, 3000000000, "/?query=SELECT%201", "1\n", "watch", heartBeatPassword⟩
       retryNumber := 0 }]
  users :=
    [{ name := "u", password := userPassword, toCluster := "c", toUser := "default", maxConcurrentQueries := 0
       maxExecutionTime := 0, reqPerMin := 0, reqPacketSizeTokensBurst := 0, reqPacketSizeTokensRate := 0
       maxQueueSize := 0, maxQueueTime := 0, allowedNetworks := [], denyHTTP := false, denyHTTPS := false
       allowCORS := false, cache := "", params := "", isWildcarded := false }]
  logDebug := false
  maxErrorReasonSize := 0
  caches := []
  paramGroups := []
  connectionPool := ⟨100, 2⟩
  allowPing := false
  httpNetworks := []
  httpsNetworks := []
  metricsNetworks := []
  proxyEnable := false
  proxyHeader := ""

theorem watchedConfig_same {p p' q q' : String} (hp : SamePassword p p') (hq : SamePassword q q') :
    (watchedConfig p q).SameButPasswords (watchedConfig p' q') where
  rest := rfl
  clusters := .cons ⟨rfl, .cons ⟨rfl, .inl rfl⟩ .nil, ⟨rfl, .inl rfl⟩, ⟨rfl, hq⟩⟩ .nil
  users := .cons ⟨rfl, hp⟩ .nil
  caches := .nil

theorem text_hides_user_password :
    (watchedConfig "first" "secret").SameButPasswords (watchedConfig "second" "secret") ∧
    ∀ marshal, (watchedConfig "first" "secret").string marshal = (watchedConfig "second" "secret").string marshal := by
  have hsame : (watchedConfig "first" "secret").SameButPasswords (watchedConfig "second" "secret") :=
    watchedConfig_same (.inr ⟨by decide, by decide⟩) (.inl rfl)
  exact ⟨hsame, (text_hides_passwords_iff hsame).2 (.cons ⟨rfl, fun _ => rfl⟩ .nil)⟩

/-- The heartbeat of the second configuration has another password: every marshaller whose text shows the
passwords of the heartbeats gives another text, such as one that prints just these. -/
theorem text_shows_heartbeat_password :
    (watchedConfig "user" "first").SameButPasswords (watchedConfig "user" "second") ∧
    (watchedConfig "user" "first").string (fun c => .ok (String.join (c.clusters.map (·.heartBeat.password)))) =
      some "first" ∧
    (watchedConfig "user" "second").string (fun c => .ok (String.join (c.clusters.map (·.heartBeat.password)))) =
      some "second" ∧
    ∀ marshal : Config → Except String String,
      (∀ c, ∃ text, marshal c = .ok text) →
      (∀ c c', marshal c = marshal c' →
        c.clusters.map (·.heartBeat.password) = c'.clusters.map (·.heartBeat.password)) →
      (watchedConfig "user" "first").string marshal ≠ (watchedConfig "user" "second").string marshal := by
  refine ⟨watchedConfig_same (.inl rfl) (.inr ⟨by decide, by decide⟩), by decide, by decide,
    fun marshal hok hshows heq => ?_⟩
  obtain ⟨text, htext⟩ := hok (watchedConfig "user" "first").withoutSensitiveInfo
  obtain ⟨text', htext'⟩ := hok (watchedConfig "user" "second").withoutSensitiveInfo
  simp only [string, htext, htext', Option.some.injEq] at heq
  subst heq
  have hsame := hshows _ _ (htext.trans htext'.symm)
  exact absurd hsame (by decide)

end Config

end Chproxy
