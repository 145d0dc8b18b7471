/-
Whose credentials `getUser` accepts: the exact user with its password, or a name that a pattern of a
wildcarded user stands for. The search over the patterns is guarded by `hasWildcarded`, which loads set
and never clear; it holds whenever a wildcarded user is in the table, so the guard is never in the way.
-/
import Chproxy.Routing.GetUser
import Chproxy.Routing.Origin

namespace Chproxy.Routing

open Config (splitStar IsPattern)

/-! ## Patterns -/

/-- The names a pattern stands for: some text in the place of the star. -/
def Matches (pattern name : String) : Prop :=
  ∃ s₀ s₁ middle, splitStar pattern = [s₀, s₁] ∧ name.toList = s₀.toList ++ middle ++ s₁.toList

/-- A wildcarded user whose pattern stands for the name. -/
def User.Accepts (u : User) (name : String) : Prop := u.isWildcarded = true ∧ Matches u.name name

section Patterns

variable {pattern name s₀ s₁ : String}

theorem matches_of_split (h : splitStar pattern = [s₀, s₁]) :
    Matches pattern name ↔ ∃ middle, name.toList = s₀.toList ++ middle ++ s₁.toList := by
  constructor
  · rintro ⟨t₀, t₁, middle, hsplit, hname⟩
    rw [h] at hsplit
    cases hsplit
    exact ⟨middle, hname⟩
  · rintro ⟨middle, hname⟩
    exact ⟨s₀, s₁, middle, h, hname⟩

/-- A pattern that begins with the star asks for a suffix. -/
theorem matches_suffix (h : splitStar pattern = ["", s₁]) :
    Matches pattern name ↔ s₁.toList.isSuffixOf name.toList = true := by
  rw [matches_of_split h, List.isSuffixOf_iff_suffix]
  exact exists_congr fun middle => eq_comm

/-- A pattern that ends with the star asks for a prefix. -/
theorem matches_front (h : splitStar pattern = [s₀, ""]) :
    Matches pattern name ↔ s₀.toList.isPrefixOf name.toList = true := by
  rw [matches_of_split h, List.isPrefixOf_iff_prefix]
  exact exists_congr fun middle => by rw [eq_comm]; simp

end Patterns

/-! ## The search -/

section Search

variable {rp : ReverseProxy} {name password : String} {user : User} {users : List User}

theorem ReverseProxy.findWildcardedUserInformation_accepts (hpattern : IsPattern user.name)
    (h : user.Accepts name) :
    rp.findWildcardedUserInformation name password (user :: users) =
      rp.generateWildcardedUserInformation user name password := by
  obtain ⟨s₀, s₁, hsplit, hend⟩ := hpattern
  obtain ⟨hwild, hmatch⟩ := h
  unfold findWildcardedUserInformation
  rw [if_pos hwild, hsplit]
  dsimp only
  by_cases h₀ : s₀ = ""
  · subst h₀
    have hsuffix := (matches_suffix hsplit).1 hmatch
    simp [hsuffix]
  · have h₁ : s₁ = "" := hend.resolve_left h₀
    subst h₁
    have hstart := (matches_front hsplit).1 hmatch
    simp [h₀, hstart]

theorem ReverseProxy.findWildcardedUserInformation_skips (hpattern : user.isWildcarded = true → IsPattern user.name)
    (h : ¬user.Accepts name) :
    rp.findWildcardedUserInformation name password (user :: users) =
      rp.findWildcardedUserInformation name password users := by
  conv_lhs => unfold findWildcardedUserInformation
  split
  · rename_i hwild
    obtain ⟨s₀, s₁, hsplit, hend⟩ := hpattern hwild
    have hmatch : ¬Matches user.name name := fun hm => h ⟨hwild, hm⟩
    rw [hsplit]
    dsimp only
    -- the text is on one side of the `*` only
    by_cases h₀ : s₀ = ""
    · subst h₀
      rw [matches_suffix hsplit] at hmatch
      have h₁ : s₁ ≠ "" := by
        rintro rfl
        exact hmatch (by simp)
      simp [h₁, hmatch]
    · have h₁ : s₁ = "" := hend.resolve_left h₀
      subst h₁
      rw [matches_front hsplit] at hmatch
      simp [h₀, hmatch]
  · rfl

theorem ReverseProxy.generateWildcardedUserInformation_ok (name password : String)
    (htarget : (configured rp.clusters user.toCluster user.toUser).isSome) :
    ∃ c cu, rp.generateWildcardedUserInformation user name password = .ok ⟨true, some user, some c, some cu⟩ := by
  obtain ⟨cu, hcu⟩ := Option.isSome_iff_exists.1 htarget
  obtain ⟨c, hc, hcu⟩ := Option.bind_eq_some_iff.1 hcu
  exact ⟨c, _, generateWildcardedUserInformation_copy hc hcu name password⟩

variable (name password) in
/-- The search finds the first user in the order of iteration that accepts the name, if there is one. -/
theorem ReverseProxy.findWildcardedUserInformation_spec : ∀ {order : List User},
    (∀ u ∈ order, (configured rp.clusters u.toCluster u.toUser).isSome) →
    (∀ u ∈ order, u.isWildcarded = true → IsPattern u.name) →
    ∃ r, rp.findWildcardedUserInformation name password order = .ok r ∧
      (r.found = true ↔ ∃ u ∈ order, u.Accepts name) ∧
      (r.found = true → ∃ u ∈ order, u.Accepts name ∧ r.u = some u)
  | [], _, _ => ⟨.notFound, rfl, by simp [Lookup.notFound], nofun⟩
  | user :: users, htarget, hpattern => by
    have hhead := hpattern user List.mem_cons_self
    by_cases haccepts : user.Accepts name
    · obtain ⟨c, cu, hgen⟩ := generateWildcardedUserInformation_ok name password
        (htarget user List.mem_cons_self)
      rw [findWildcardedUserInformation_accepts (hhead haccepts.1) haccepts, hgen]
      exact ⟨_, rfl, iff_of_true rfl ⟨user, List.mem_cons_self, haccepts⟩,
        fun _ => ⟨user, List.mem_cons_self, haccepts, rfl⟩⟩
    · obtain ⟨r, hr, hfound, huser⟩ := findWildcardedUserInformation_spec
        (fun u hu => htarget u (List.mem_cons_of_mem _ hu)) fun u hu => hpattern u (List.mem_cons_of_mem _ hu)
      rw [findWildcardedUserInformation_skips hhead haccepts]
      refine ⟨r, hr, hfound.trans ?_, fun h => ?_⟩
      · simp [haccepts]
      · obtain ⟨u, hu, hacc, hru⟩ := huser h
        exact ⟨u, List.mem_cons_of_mem _ hu, hacc, hru⟩

end Search

/-! ## The flag -/

/-- No wildcarded user is in the table without the flag. -/
def ReverseProxy.Flagged (rp : ReverseProxy) : Prop :=
  ∀ name u, rp.users.lookup name = some u → u.isWildcarded = true → rp.hasWildcarded = true

theorem ReverseProxy.applyConfig_hasWildcarded {w : World} {rp : ReverseProxy} {next : Nat} {cfg : Config}
    (h : (rp.applyConfig w next cfg).err = none) :
    (rp.applyConfig w next cfg).rp.hasWildcarded = (rp.hasWildcarded || cfg.users.any (·.isWildcarded)) := by
  unfold applyConfig at h ⊢
  dsimp only at h ⊢
  repeat' split
  all_goals first | rfl | simp_all

theorem ReverseProxy.applyConfig_flagged (w : World) {rp : ReverseProxy} (next : Nat) (cfg : Config)
    (h : rp.Flagged) : (rp.applyConfig w next cfg).rp.Flagged := by
  intro name u hu hwild
  cases herr : (rp.applyConfig w next cfg).err with
  | some e =>
    -- the users are the old ones, and the flag is never cleared
    have husers : (rp.applyConfig w next cfg).rp.users = rp.users := congrArg Tables.users (applyConfig_tables herr)
    have hflag := h name u (husers ▸ hu) hwild
    rcases applyConfig_failed herr with ⟨_, hrp⟩ | ⟨_, _, hrp⟩
    · rw [hrp]
      exact hflag
    · rw [hrp, withSettings, hflag]
      rfl
  | none =>
    obtain ⟨x, hx, hmade⟩ := (applyConfig_origin herr).1 name u hu
    have hany : cfg.users.any (·.isWildcarded) = true := List.any_eq_true.2 ⟨x, hx, hmade.isWildcarded ▸ hwild⟩
    rw [applyConfig_hasWildcarded herr, hany, Bool.or_true]

theorem Loader.flagged_reach {s : Loader} (h : Steps.Reach Loader.load Loader.Initial s) : s.rp.Flagged := by
  refine h.invariant (P := fun s => s.rp.Flagged) (fun s hs => ?_) fun s call s' hs hst _ => ?_
  · obtain ⟨⟨cfgCp, hrp⟩, _, _⟩ := hs
    rw [hrp]
    intro name u hu
    simp [newReverseProxy] at hu
  · cases hst
    exact ReverseProxy.applyConfig_flagged _ _ _ hs

/-! ## Acceptance -/

/-- The users of closed tables are stored under their names. -/
theorem Tables.Closed.mem_userValues_iff {rp : ReverseProxy} (hclosed : rp.tables.Closed) {u : User} {name : String} :
    u ∈ userValues rp.users ∧ u.name = name ↔ rp.users.lookup name = some u := by
  constructor
  · rintro ⟨hu, rfl⟩
    obtain ⟨name, hname⟩ := exists_lookup_of_mem_userValues hu
    rwa [(hclosed.users name u hname).name_eq]
  · intro hu
    exact ⟨List.mem_map.2 ⟨⟨name, u⟩, AList.mem_lookup_iff.1 hu, rfl⟩, (hclosed.users name u hu).name_eq⟩

/-- After any history of loads, and in whatever order the users are iterated over: `getUser` accepts the
password of the user that has this name, or, when there is no such user, any password for a name that is
neither empty nor `default` and that a pattern stands for; it then returns a user with such a pattern. -/
theorem credentials_accepted_iff {s : Loader} (h : Steps.ReachWhen Loader.load Loader.Initial ValidLoad s)
    {order : List User} (horder : order.Perm (userValues s.rp.users)) (name password : String) :
    ∃ r, s.rp.getUser order name password = .ok r ∧
      (r.found = true ↔
        (∃ u ∈ userValues s.rp.users, u.name = name ∧ u.password = password) ∨
        ((∀ u ∈ userValues s.rp.users, u.name ≠ name) ∧ name ≠ "" ∧ name ≠ defaultUser ∧
          ∃ u ∈ userValues s.rp.users, u.Accepts name)) ∧
      ((∀ u ∈ userValues s.rp.users, u.name ≠ name) → r.found = true →
        ∃ u ∈ userValues s.rp.users, u.Accepts name ∧ r.u = some u) := by
  have hclosed := Loader.closed_reach h
  have hnames : ∀ u ∈ userValues s.rp.users, s.rp.users.lookup u.name = some u := fun u hu =>
    hclosed.mem_userValues_iff.1 ⟨hu, rfl⟩
  cases hu : s.rp.users.lookup name with
  | some u =>
    obtain ⟨hmem, hname⟩ := hclosed.mem_userValues_iff.2 hu
    obtain ⟨c, cu, _, hget⟩ := ReverseProxy.getUser_known hclosed order password hu
    refine ⟨_, hget, ?_, fun habsent => absurd hname (habsent u hmem)⟩
    constructor
    · intro hfound
      exact .inl ⟨u, hmem, hname, by simpa using hfound⟩
    · rintro (⟨u', hmem', rfl, rfl⟩ | ⟨habsent, _⟩)
      · have hsame : u = u' := Option.some.inj (hu.symm.trans (hnames u' hmem'))
        simp [hsame]
      · exact absurd hname (habsent u hmem)
  | none =>
    -- nobody has the name, so the patterns decide
    have habsent : ∀ u ∈ userValues s.rp.users, u.name ≠ name := by
      rintro u hmem rfl
      rw [hnames u hmem] at hu
      cases hu
    have hnoexact : ¬∃ u ∈ userValues s.rp.users, u.name = name ∧ u.password = password :=
      fun ⟨u, hmem, hname, _⟩ => habsent u hmem hname
    have hrouted : ∀ u ∈ order, u.Routed s.rp.tables.clusters s.rp.tables.caches u.name := fun u hmem =>
      hclosed.users u.name u (hnames u (horder.mem_iff.1 hmem))
    obtain ⟨r, hfind, hfound, huser⟩ := ReverseProxy.findWildcardedUserInformation_spec name password
      (fun u hmem => (hrouted u hmem).target) fun u hmem => (hrouted u hmem).pattern
    simp only [horder.mem_iff] at hfound huser
    simp only [hnoexact, false_or, ReverseProxy.getUser, hu]
    split
    · rename_i hreserved
      refine ⟨.notFound, rfl, iff_of_false (by decide) ?_, fun _ hf => by cases hf⟩
      rintro ⟨_, hne, hnd, _⟩
      exact hreserved.elim hne hnd
    · rename_i hfree
      obtain ⟨hne, hnd⟩ := not_or.1 hfree
      split
      · exact ⟨r, hfind, hfound.trans ⟨fun hex => ⟨habsent, hne, hnd, hex⟩, fun hall => hall.2.2.2⟩, fun _ => huser⟩
      · -- without the flag there is no wildcarded user to be found
        rename_i hflag
        refine ⟨.notFound, rfl, iff_of_false (by decide) ?_, fun _ hf => by cases hf⟩
        rintro ⟨_, _, _, u, hmem, haccepts⟩
        exact hflag (Loader.flagged_reach h.reach u.name u (hnames u hmem) haccepts.1)

theorem credentials_accepted_analyst :
    ∃ r, analystLoader.rp.getUser (userValues analystLoader.rp.users) "analyst_7" "mine" = .ok r ∧ r.found = true := by
  obtain ⟨r, hr, hfound, _⟩ := credentials_accepted_iff analystLoader_reach (.refl _) "analyst_7" "mine"
  have hvalues :
      (userValues analystLoader.rp.users).map (fun u => (u.name, u.isWildcarded)) = [("analyst_*", true)] := by
    decide
  obtain ⟨u, hu, heq⟩ := List.mem_map.1 (hvalues ▸ List.mem_singleton.2 rfl)
  obtain ⟨hname, hwild⟩ := Prod.mk.inj heq
  refine ⟨r, hr, hfound.2 (.inr ⟨fun x hx => ?_, by decide, by decide, u, hu, hwild, ?_⟩)⟩
  · have hx' := List.mem_map_of_mem (f := fun u : User => (u.name, u.isWildcarded)) hx
    rw [hvalues, List.mem_singleton] at hx'
    rw [(Prod.mk.inj hx').1]
    decide
  · rw [hname]
    exact ⟨"analyst_", "", ['7'], by decide, by decide⟩

end Chproxy.Routing
