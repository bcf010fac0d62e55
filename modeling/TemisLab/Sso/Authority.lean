/-
  Whether a token of the current version carries the current authority. The version is the only
  thing that makes an older role set stale, so two operations on a user must never write the
  same version. Operations that lock the target's row before they read it cannot;
  `bootstrap_admin`, and an operation whose actor is its target, read the row first and add one
  to what they read.

  * `lost_bump`: `bootstrap_admin` reads version 2, a role change commits version 3, a bundle
    is issued for version 3, and `bootstrap_admin` commits version 3 with one more role.
  * `current_authority`: the property holds of every run in which such an operation writes one
    more than the version that is committed when it writes (`writesFresh`).

  The invariant of one transaction is `Versioned`. `commit_users` says what its commit does to
  a user: nothing, or one more version under the user's row lock.
-/
import TemisLab.Sso.Statements
import TemisLab.Sso.Requests

namespace TemisLab.Sso

open TemisLab.Lib

/-- The roles and the scope of the claims are those of the user's role rows. -/
def Matches (db : Db) (c : AccessClaims) : Prop :=
  (∀ x, x ∈ c.roles ↔ ∃ r, db.hasRole c.sub r = true ∧ x = "temis:" ++ r) ∧
    ("admin:write" ∈ PyText.split c.scope ↔ db.hasRole c.sub "admin" = true)

/-- After the run of `es` from `db`, the tokens of their user's version match its roles. -/
def CurrentAuthority (env : Env) (db : Db) (es : List (Event Call Time)) : Prop :=
  let s := run (engine env).step (.start db) es
  ∀ b ∈ s.out, ∀ user, s.db.user b.accessToken.claims.sub = some user →
    b.accessToken.claims.authzVersion = user.authzVersion → Matches s.db b.accessToken.claims

/-- An operation that loaded its target before it locked the row writes the version only while
    the one it loaded is the committed one. -/
def writesFresh (s : World Db Txn String TokenBundle) : Event Call Time → Bool
  | .stmt tid _ =>
      match s.txns tid with
      | some ⟨.admin op, .flushVersion v :: _, users, _, _, _, _, _⟩ =>
          !op.loadsEarly || (s.locks v ≠ none && s.locks v ≠ some tid) ||
            match users v, s.db.user v with
            | some l, some u => u.authzVersion = l.saved.authzVersion
            | _, _ => true
      | _ => true
  | _ => true

/-! ## What the programs are -/

theorem flushVersion_program {c : Call} {v : String} (h : .flushVersion v ∈ c.program) :
    ∃ op, c = .admin op ∧ v = op.target := by
  cases c with
  | bundle u aud refreshToken fresh kid => simpa using mem_bundleProgram h
  | admin op =>
      cases AdminOp.has_of_mem h
      exact ⟨op, rfl, rfl⟩

theorem flushVersion_mem (op : AdminOp) : .flushVersion op.target ∈ op.program := by
  cases op <;> simp [AdminOp.program, AdminOp.target]

/-- The version is written once. -/
theorem count_flushVersion (c : Call) (v : String) : c.program.count (.flushVersion v) ≤ 1 := by
  cases c with
  | bundle u aud refreshToken fresh kid =>
      simp only [Call.program, bundleProgram]
      split <;> simp
  | admin op =>
      cases op with
      | bootstrapAdmin u =>
          by_cases hv : u = v <;> simp [Call.program, AdminOp.program, hv]
      | approveUser a t failForTest =>
          cases failForTest <;> by_cases hv : t = v <;>
            simp [Call.program, AdminOp.program, hv]
      | suspendUser a t reason =>
          by_cases hv : t = v <;> simp [Call.program, AdminOp.program, hv]
      | changeRole a t role grant =>
          cases grant <;> by_cases hv : t = v <;> simp [Call.program, AdminOp.program, hv]
      | revokeSessions a t =>
          by_cases hv : t = v <;> simp [Call.program, AdminOp.program, hv]

/-- Only early loaders read the target's row without its lock. -/
theorem getUser_program {op : AdminOp} {v : String} (h : .getUser v ∈ op.program)
    (he : op.loadsEarly = false) : v ≠ op.target := by
  unfold AdminOp.loadsEarly at he
  cases AdminOp.has_of_mem h with
  | loadActor a ha =>
      rintro rfl
      simp [ha] at he
  | loadTarget ha => simp [ha] at he

/-- Only `issue_bundle` signs and reads the list of roles, both for its user. -/
theorem sign_program {c : Call} {v w aud refresh : String} {kid : Option String}
    (h : .sign v aud refresh kid ∈ c.program) (hr : .readRoles w ∈ c.program) : w = v := by
  cases c with
  | bundle u aud' refreshToken fresh kid' =>
      have hv := mem_bundleProgram h
      have hw := mem_bundleProgram hr
      simp only [reduceCtorEq, false_or, or_false, Stmt.sign.injEq, Stmt.readRoles.injEq] at hv hw
      exact hw.trans hv.1.symm
  | admin op => cases AdminOp.has_of_mem h

/-- A call that signs writes no version. -/
theorem no_flushVersion_of_sign {c : Call} {v w aud refresh : String} {kid : Option String}
    (h : .sign v aud refresh kid ∈ c.program) : .flushVersion w ∉ c.program := by
  intro hw
  obtain ⟨op, rfl, -⟩ := flushVersion_program hw
  cases AdminOp.has_of_mem h

/-! ## What a statement does to the loaded versions -/

section Ran

variable {now : Time} {db : Db} {t t' : Txn} {st : Stmt} {k : Option String}

theorem ran_fixed (hr : t.Ran now db st k t') : t'.call = t.call ∧ t'.rest = t.rest := by
  cases hr with
  | get v => exact ⟨(load_fields t v _).1, (load_fields t v _).2.1⟩
  | lock v u hu => exact ⟨(load_fields t v _).1, (load_fields t v _).2.1⟩
  | _ => exact ⟨rfl, rfl⟩

theorem ran_lock {v : String} (hr : t.Ran now db (.flushVersion v) k t') : k = some v := by
  cases hr with
  | check hne roles => exact absurd rfl (hne v)
  | send hne ws hws => exact absurd rfl (hne v)
  | flushVersion v l hl => rfl

/-- A version is written by the flush that raises it, one higher than the loaded one. -/
theorem ran_version (hr : t.Ran now db st k t') (hs : t.Shape) (v : String) (n : ℤ) :
    .version v n ∈ t'.writes ↔ .version v n ∈ t.writes ∨
      (st = .flushVersion v ∧ ∃ l, t.users v = some l ∧ n = l.saved.authzVersion + 1) := by
  cases hr with
  | check hne roles => simp [hne v]
  | get w => simp [(load_fields t w _).2.2.2.1]
  | lock w u hu => simp [(load_fields t w _).2.2.2.1]
  | flush w l hl =>
      have hv := (hs.users w l hl).1
      simp [Txn.write, Loaded.changes, hv]
  | flushVersion w l hl =>
      have hv := (hs.users w l hl).1
      by_cases hw : w = v
      · subst hw
        simp [Txn.write, Loaded.changes, User.bumpVersion, hv, hl]
      · simp [Txn.write, Loaded.changes, User.bumpVersion, hv, hw, Ne.symm hw]
  | send hne ws hws =>
      have hno : .version v n ∉ ws := by
        intro hw
        rcases hws _ hw with ⟨x, r, -, hx⟩ | hx
        · cases hx
        · cases hx
      simp [hne v, hno]
  | insert => simp
  | _ => simp [Txn.assign]

/-- Where the loaded copy of a user comes from. -/
theorem ran_users (hr : t.Ran now db st k t') (hs : t.Shape) {v : String} {l' : Loaded}
    (h : t'.users v = some l') :
    (∃ l, t.users v = some l ∧ l'.current.authzVersion = l.current.authzVersion ∧
      l'.saved.authzVersion = l.saved.authzVersion) ∨
    ((st = .getUser v ∨ (st = .lockUser v ∧ k = some v)) ∧
      ∃ u, db.user v = some u ∧ l' = ⟨u, u⟩) ∨
    (st = .flushVersion v ∧ ∃ l, t.users v = some l) := by
  cases hr with
  | get w =>
      rcases users_load h with h | ⟨rfl, -, u, hu, rfl⟩
      · exact Or.inl ⟨l', h, rfl, rfl⟩
      · exact Or.inr (Or.inl ⟨Or.inl rfl, u, hu, rfl⟩)
  | lock w u hu =>
      rcases users_load h with h | ⟨rfl, -, u', hu', rfl⟩
      · exact Or.inl ⟨l', h, rfl, rfl⟩
      · cases hu'
        exact Or.inr (Or.inl ⟨Or.inr ⟨rfl, rfl⟩, u, hu, rfl⟩)
  | assign w s l hl =>
      rcases users_update h with ⟨rfl, rfl⟩ | h
      · exact Or.inl ⟨l, hl, rfl, rfl⟩
      · exact Or.inl ⟨l', h, rfl, rfl⟩
  | flush w l hl =>
      rcases users_update h with ⟨rfl, rfl⟩ | h
      · exact Or.inl ⟨l, hl, rfl, (hs.users v l hl).1⟩
      · exact Or.inl ⟨l', h, rfl, rfl⟩
  | flushVersion w l hl =>
      rcases users_update h with ⟨rfl, -⟩ | h
      · exact Or.inr (Or.inr ⟨rfl, l, hl⟩)
      · exact Or.inl ⟨l', h, rfl, rfl⟩
  | _ => exact Or.inl ⟨l', h, rfl, rfl⟩

/-- A loaded user stays loaded, with its version unless that is raised. -/
theorem ran_users_some (hr : t.Ran now db st k t') {v : String} {l : Loaded}
    (h : t.users v = some l) (hst : st ≠ .flushVersion v) :
    ∃ l', t'.users v = some l' ∧ l'.current.authzVersion = l.current.authzVersion := by
  have hupdate : ∀ (w : String) (l₁ l₂ : Loaded), t.users w = some l₁ →
      l₂.current.authzVersion = l₁.current.authzVersion →
      ∃ l', Function.update t.users w (some l₂) v = some l' ∧
        l'.current.authzVersion = l.current.authzVersion := by
    intro w l₁ l₂ hl₁ hv
    by_cases hw : v = w
    · subst hw
      rw [h] at hl₁
      cases hl₁
      exact ⟨l₂, Function.update_self .., hv⟩
    · exact ⟨l, by rw [Function.update_of_ne hw, h], rfl⟩
  have hload : ∀ (w : String) (row : Option User), ∃ l', (t.load w row).users v = some l' ∧
      l'.current.authzVersion = l.current.authzVersion := by
    intro w row
    unfold Txn.load
    split
    · next u hn =>
        have hw : v ≠ w := by
          intro he
          rw [← he, h] at hn
          cases hn
        exact ⟨l, (Function.update_of_ne hw ..).trans h, rfl⟩
    · exact ⟨l, h, rfl⟩
  cases hr with
  | get w => exact hload w _
  | lock w u hu => exact hload w _
  | assign w s l₁ hl₁ => exact hupdate w l₁ _ hl₁ rfl
  | flush w l₁ hl₁ => exact hupdate w l₁ _ hl₁ rfl
  | flushVersion w l₁ hl₁ =>
      have hw : v ≠ w := fun he => hst (he ▸ rfl)
      exact ⟨l, (Function.update_of_ne hw ..).trans h, rfl⟩
  | _ => exact ⟨l, h, rfl⟩

theorem ran_names (hr : t.Ran now db st k t') {names : List String}
    (h : t'.roleNames = some names) :
    t.roleNames = some names ∨
      ∃ v l, st = .readRoles v ∧ t.users v = some l ∧ names = db.roles v := by
  cases hr with
  | get v => exact Or.inl ((load_fields t v _).2.2.2.2.1 ▸ h)
  | lock v u hu => exact Or.inl ((load_fields t v _).2.2.2.2.1 ▸ h)
  | names v l hl => exact Or.inr ⟨v, l, rfl, hl, (Option.some.inj h).symm⟩
  | _ => exact Or.inl h

theorem ran_bundle (hr : t.Ran now db st k t') {b : TokenBundle} (h : t'.bundle = some b) :
    t.bundle = some b ∨ ∃ v aud refresh kid l names, st = .sign v aud refresh kid ∧
      t.users v = some l ∧ t.roleNames = some names ∧
      b.accessToken.claims = bundleClaims v l.current.authzVersion names aud now := by
  cases hr with
  | get v => exact Or.inl ((load_fields t v _).2.2.2.2.2 ▸ h)
  | lock v u hu => exact Or.inl ((load_fields t v _).2.2.2.2.2 ▸ h)
  | sign v aud refresh kid l names access hl hn ha =>
      cases h
      obtain ⟨kid', -, rfl⟩ := Option.map_eq_some_iff.mp ha
      exact Or.inr ⟨v, aud, refresh, kid, l, names, rfl, hl, hn, rfl⟩
  | _ => exact Or.inl h

end Ran

/-! ## The invariant of one transaction -/

/-- The claims are no newer than their user, and match its roles if they are as new. -/
def Attests (db : Db) (c : AccessClaims) : Prop :=
  ∃ user, db.user c.sub = some user ∧ c.authzVersion ≤ user.authzVersion ∧
    (c.authzVersion = user.authzVersion → Matches db c)

/-- The loaded version of `v` is no newer than its row, and `names` are the roles if it is as
    new. -/
def Txn.NamesCurrent (db : Db) (t : Txn) (v : String) (names : List String) : Prop :=
  ∃ l u, t.users v = some l ∧ db.user v = some u ∧
    l.current.authzVersion ≤ u.authzVersion ∧
    (l.current.authzVersion = u.authzVersion → ∀ r, r ∈ names ↔ db.hasRole v r = true)

/-- A transaction that holds the row locks `H`, over the committed tables `db`. -/
structure Versioned (db : Db) (H : String → Prop) (t : Txn) : Prop where
  shape : t.Shape
  once : ∀ v, t.rest.count (.flushVersion v) ≤ 1
  bumps : ∀ op, t.call = .admin op →
    (.flushVersion op.target ∈ t.rest ∧ ∀ n, .version op.target n ∉ t.writes) ∨
    (.flushVersion op.target ∉ t.rest ∧ ∃ n, .version op.target n ∈ t.writes)
  written : ∀ v n, .version v n ∈ t.writes →
    H v ∧ ∃ u, db.user v = some u ∧ n = u.authzVersion + 1
  locked : ∀ op l, t.call = .admin op → op.loadsEarly = false →
    .flushVersion op.target ∈ t.rest → t.users op.target = some l →
    H op.target ∧ ∃ u, db.user op.target = some u ∧ u.authzVersion = l.saved.authzVersion
  loaded : ∀ v l, t.users v = some l → (∀ n, .version v n ∉ t.writes) →
    ∃ u, db.user v = some u ∧ l.current.authzVersion ≤ u.authzVersion
  names : ∀ names v aud refresh kid, t.roleNames = some names →
    .sign v aud refresh kid ∈ t.call.program → t.NamesCurrent db v names
  signed : ∀ b, t.bundle = some b → Attests db b.accessToken.claims

theorem versioned_begin {db : Db} {c : Call} {t : Txn} (h : c.begin = some t) :
    Versioned db (fun _ => False) t := by
  obtain ⟨hshape, hcall⟩ := shape_begin h
  have ht : t = { call := c, rest := c.program } := by
    unfold Call.begin at h
    split at h
    · split at h
      · cases h
      · exact (Option.some.inj h).symm
    · exact (Option.some.inj h).symm
  rw [ht] at hshape ⊢
  refine ⟨hshape, count_flushVersion c, ?_, by simp, by simp, by simp, by simp, by simp⟩
  intro op hop
  left
  simp only at hop
  subst hop
  exact ⟨flushVersion_mem op, by simp⟩

/-- The claims of a bundle made from current names. -/
theorem attests_sign {db : Db} {t : Txn} {v aud : String} {l : Loaded} {names : List String}
    {now : Time} (h : t.NamesCurrent db v names) (hl : t.users v = some l) :
    Attests db (bundleClaims v l.current.authzVersion names aud now) := by
  obtain ⟨l', u, hl', hu, hle, hroles⟩ := h
  rw [hl] at hl'
  cases hl'
  refine ⟨u, hu, hle, ?_⟩
  intro heq
  have hmem := hroles heq
  refine ⟨?_, ?_⟩
  · intro x
    simp only [bundleClaims, accessClaims, List.mem_map]
    refine ⟨?_, ?_⟩
    · intro hx
      obtain ⟨r, hr, hx⟩ := hx
      exact ⟨r, (hmem r).mp hr, hx.symm⟩
    · intro hx
      obtain ⟨r, hr, hx⟩ := hx
      exact ⟨r, (hmem r).mpr hr, hx.symm⟩
  · rw [mem_bundle_scope]
    exact hmem "admin"

section Statement

variable {db : Db} {H : String → Prop} {t t' : Txn} {now : Time} {st : Stmt} {rest : List Stmt}
  {k : Option String} (h : Versioned db H t) (hrest : t.rest = st :: rest)
  (hr : Txn.Ran now db { t with rest } st k t')

include h hrest in
theorem mem_program_of_rest : st ∈ t.call.program :=
  h.shape.rest st (by rw [hrest]; exact List.mem_cons_self)

include h hrest in
theorem shape_tail : Txn.Shape { t with rest } := by
  refine ⟨?_, h.shape.users, h.shape.added, h.shape.writes⟩
  intro st' hst'
  exact h.shape.rest st' (by rw [hrest]; exact List.mem_cons_of_mem st hst')

include h hrest in
theorem flushVersion_once {v : String} (hv : st = .flushVersion v) : .flushVersion v ∉ rest := by
  intro hmem
  have hcount := h.once v
  rw [hrest, hv, List.count_cons_self] at hcount
  have hpos := List.count_pos_iff.mpr hmem
  omega

include h hrest in
/-- The loaded version a flush adds one to is the committed one. -/
theorem version_current
    (hfresh : ∀ op l u, t.call = .admin op → op.loadsEarly = true →
      st = .flushVersion op.target → t.users op.target = some l → db.user op.target = some u →
      u.authzVersion = l.saved.authzVersion)
    {v : String} {l : Loaded} (hf : st = .flushVersion v) (hl : t.users v = some l) :
    ∃ u, db.user v = some u ∧ u.authzVersion = l.saved.authzVersion := by
  have hst := mem_program_of_rest h hrest
  rw [hf] at hst
  obtain ⟨op, hop, rfl⟩ := flushVersion_program hst
  have hmem : .flushVersion op.target ∈ t.rest := by
    rw [hrest, hf]
    exact List.mem_cons_self
  cases he : op.loadsEarly with
  | true =>
      have hno : ∀ n, .version op.target n ∉ t.writes :=
        ((h.bumps op hop).resolve_right fun hb => hb.1 hmem).2
      obtain ⟨u, hu, -⟩ := h.loaded op.target l hl hno
      exact ⟨u, hu, hfresh op l u hop he hf hl hu⟩
  | false => exact (h.locked op l hop he hmem hl).2

include h hrest hr

/-- `ran_version`, with the statement taken off the list. -/
theorem writes_ran (v : String) (n : ℤ) :
    .version v n ∈ t'.writes ↔ .version v n ∈ t.writes ∨
      (st = .flushVersion v ∧ ∃ l, t.users v = some l ∧ n = l.saved.authzVersion + 1) :=
  ran_version hr (shape_tail h hrest) v n

theorem bumps_ran (op : AdminOp) (hop : t.call = .admin op) :
    (.flushVersion op.target ∈ rest ∧ ∀ n, .version op.target n ∉ t'.writes) ∨
    (.flushVersion op.target ∉ rest ∧ ∃ n, .version op.target n ∈ t'.writes) := by
  have hwrites := writes_ran h hrest hr op.target
  by_cases hflush : st = .flushVersion op.target
  · -- the version is written now, and not again
    right
    refine ⟨flushVersion_once h hrest hflush, ?_⟩
    rw [hflush] at hr
    cases hr with
    | check hne roles => exact absurd rfl (hne _)
    | send hne ws hws => exact absurd rfl (hne _)
    | flushVersion v l hl => exact ⟨_, (hwrites _).mpr (Or.inr ⟨hflush, l, hl, rfl⟩)⟩
  · rcases h.bumps op hop with ⟨hmem, hno⟩ | ⟨hmem, n, hn⟩
    · left
      rw [hrest] at hmem
      refine ⟨(List.mem_cons.mp hmem).resolve_left (Ne.symm hflush), ?_⟩
      intro n hn
      rcases (hwrites n).mp hn with hn | ⟨hf, -⟩
      · exact hno n hn
      · exact hflush hf
    · right
      rw [hrest] at hmem
      refine ⟨fun hm => hmem (List.mem_cons_of_mem st hm), n, ?_⟩
      exact (hwrites n).mpr (Or.inl hn)

theorem locked_ran (op : AdminOp) (l' : Loaded) (hop : t.call = .admin op)
    (he : op.loadsEarly = false) (hmem : .flushVersion op.target ∈ rest)
    (hl' : t'.users op.target = some l') :
    (k = some op.target ∨ H op.target) ∧
      ∃ u, db.user op.target = some u ∧ u.authzVersion = l'.saved.authzVersion := by
  have hst := mem_program_of_rest h hrest
  have hmem₀ : .flushVersion op.target ∈ t.rest := by
    rw [hrest]
    exact List.mem_cons_of_mem st hmem
  rcases ran_users hr (shape_tail h hrest) hl' with
    ⟨l, hl, -, hsaved⟩ | ⟨hload, u, hu, rfl⟩ | ⟨hf, -⟩
  · obtain ⟨hH, u, hu, hv⟩ := h.locked op l hop he hmem₀ hl
    exact ⟨Or.inr hH, u, hu, hv.trans hsaved.symm⟩
  · rcases hload with hget | ⟨-, hk⟩
    · rw [hget, hop] at hst
      exact absurd rfl (getUser_program hst he)
    · exact ⟨Or.inl hk, u, hu, rfl⟩
  · exact absurd hmem (flushVersion_once h hrest hf)

theorem loaded_ran (v : String) (l' : Loaded) (hl' : t'.users v = some l')
    (hno : ∀ n, .version v n ∉ t'.writes) :
    ∃ u, db.user v = some u ∧ l'.current.authzVersion ≤ u.authzVersion := by
  have hwrites := writes_ran h hrest hr v
  have hno₀ : ∀ n, .version v n ∉ t.writes := fun n hn => hno n ((hwrites n).mpr (Or.inl hn))
  rcases ran_users hr (shape_tail h hrest) hl' with
    ⟨l, hl, hcur, -⟩ | ⟨-, u, hu, rfl⟩ | ⟨hf, l, hl⟩
  · rw [hcur]
    exact h.loaded v l hl hno₀
  · exact ⟨u, hu, le_refl _⟩
  · exact absurd ((hwrites _).mpr (Or.inr ⟨hf, l, hl, rfl⟩)) (hno _)

theorem names_ran (names : List String) (v aud refresh : String) (kid : Option String)
    (hn : t'.roleNames = some names) (hsign : .sign v aud refresh kid ∈ t.call.program) :
    t'.NamesCurrent db v names := by
  have hst := mem_program_of_rest h hrest
  have hne : st ≠ .flushVersion v := by
    intro hf
    exact no_flushVersion_of_sign hsign (hf ▸ hst)
  rcases ran_names hr hn with hn | ⟨w, l, hread, hl, rfl⟩
  · obtain ⟨l, u, hl, hu, hle, hroles⟩ := h.names names v aud refresh kid hn hsign
    obtain ⟨l', hl', hcur⟩ := ran_users_some hr hl hne
    exact ⟨l', u, hl', hu, hcur ▸ hle, hcur ▸ hroles⟩
  · obtain rfl := sign_program hsign (hread ▸ hst)
    obtain ⟨l', hl', hcur⟩ := ran_users_some hr hl hne
    have hno : ∀ n, .version w n ∉ t.writes := fun n hn =>
      no_flushVersion_of_sign hsign (h.shape.writes _ hn)
    obtain ⟨u, hu, hle⟩ := h.loaded w l hl hno
    exact ⟨l', u, hl', hu, hcur ▸ hle, fun _ r => Db.mem_roles⟩

/-- The step lemma of the invariant. -/
theorem versioned_ran
    (hfresh : ∀ op l u, t.call = .admin op → op.loadsEarly = true →
      st = .flushVersion op.target → t.users op.target = some l → db.user op.target = some u →
      u.authzVersion = l.saved.authzVersion) :
    Versioned db (fun v => k = some v ∨ H v) t' := by
  have hst := mem_program_of_rest h hrest
  obtain ⟨hcall, hrest'⟩ := ran_fixed hr
  simp only at hcall hrest'
  refine ⟨(shape_ran (shape_tail h hrest) hst hr).1, ?_, ?_, ?_, ?_, ?_, ?_, ?_⟩
  · intro v
    rw [hrest']
    refine le_trans ?_ (h.once v)
    rw [hrest]
    exact List.count_le_count_cons
  · rw [hcall, hrest']
    exact bumps_ran h hrest hr
  · intro v n hn
    rcases (writes_ran h hrest hr v n).mp hn with hn | ⟨hf, l, hl, rfl⟩
    · obtain ⟨hH, hu⟩ := h.written v n hn
      exact ⟨Or.inr hH, hu⟩
    · -- the version just written: the row is locked now, and its version is the loaded one
      obtain ⟨u, hu, hver⟩ := version_current h hrest hfresh hf hl
      rw [hf] at hr
      exact ⟨Or.inl (ran_lock hr), u, hu, by rw [hver]⟩
  · rw [hcall, hrest']
    exact locked_ran h hrest hr
  · exact loaded_ran h hrest hr
  · rw [hcall]
    exact names_ran h hrest hr
  · intro b hb
    rcases ran_bundle hr hb with hb | ⟨v, aud, refresh, kid, l, names, hsign, hl, hn, hclaims⟩
    · exact h.signed b hb
    · rw [hclaims]
      exact attests_sign (h.names names v aud refresh kid hn (hsign ▸ hst)) hl

end Statement

/-! ## What a commit does -/

/-- The user whose version, status or roles a write changes. -/
def Write.userOf : Write → Option String
  | .status v _ => some v
  | .version v _ => some v
  | .insertRole v _ => some v
  | .deleteRole v _ => some v
  | _ => none

theorem makes_target {c : Call} {w : Write} {v : String} (hm : c.Makes w)
    (hv : w.userOf = some v) : ∃ op, c = .admin op ∧ op.target = v := by
  cases c with
  | bundle u aud refreshToken fresh kid =>
      cases w with
      | status x s => simpa using mem_bundleProgram hm
      | version x n => simpa using mem_bundleProgram hm
      | insertRole x r => simpa using mem_bundleProgram hm
      | deleteRole x r => simpa using mem_bundleProgram hm
      | _ => cases hv
  | admin op =>
      refine ⟨op, rfl, ?_⟩
      cases w with
      | status x s =>
          cases AdminOp.has_of_mem hm
          exact Option.some.inj hv
      | version x n =>
          cases AdminOp.has_of_mem hm
          exact Option.some.inj hv
      | insertRole x r =>
          cases AdminOp.has_of_mem hm
          exact Option.some.inj hv
      | deleteRole x r =>
          cases AdminOp.has_of_mem hm
          exact Option.some.inj hv
      | _ => cases hv

/-- A write about somebody else. -/
theorem apply_other {env : Env} {db db' : Db} {w : Write} {v : String}
    (hv : w.userOf ≠ some v) (h : w.apply env db = some db') :
    db'.user v = db.user v ∧ ∀ r, db'.hasRole v r = db.hasRole v r := by
  have huser : ∀ u, w.onUser v u = u := by
    intro u
    cases w with
    | status x s => exact if_neg fun he : v = x => hv (by rw [he]; rfl)
    | version x n => exact if_neg fun he : v = x => hv (by rw [he]; rfl)
    | _ => rfl
  refine ⟨?_, ?_⟩
  · rw [user_apply h, funext huser]
    cases db.user v <;> rfl
  · intro r
    rw [hasRole_apply h]
    cases w with
    | insertRole x r' =>
        have hne : ¬ (v = x ∧ r = r') := fun he => hv (he.1 ▸ rfl)
        simp [Write.onRole, hne]
    | deleteRole x r' =>
        have hne : ¬ (v = x ∧ r = r') := fun he => hv (he.1 ▸ rfl)
        simp [Write.onRole, hne]
    | _ => rfl

/-- The writes about a user leave the version one of them writes, where all write the same. -/
theorem version_applyAll {env : Env} {v : String} {n : ℤ} {ws : List Write}
    (hall : ∀ m, .version v m ∈ ws → m = n) {db db' : Db} {u : User} (hu : db.user v = some u)
    (hsome : u.authzVersion = n ∨ .version v n ∈ ws) (h : applyAll env db ws = some db') :
    ∃ u', db'.user v = some u' ∧ u'.authzVersion = n := by
  induction ws generalizing db u with
  | nil =>
      cases h
      exact ⟨u, hu, hsome.resolve_right (by simp)⟩
  | cons w ws ih =>
      obtain ⟨db₁, hw, hws⟩ := Option.bind_eq_some_iff.mp h
      have hu₁ : db₁.user v = some (w.onUser v u) := by
        rw [user_apply hw, hu]
        rfl
      refine ih (fun m hm => hall m (List.mem_cons_of_mem w hm)) hu₁ ?_ hws
      have hkeep : (∀ m, w ≠ .version v m) → (w.onUser v u).authzVersion = u.authzVersion := by
        intro hne
        cases w with
        | status x s => by_cases hx : v = x <;> simp [Write.onUser, hx, User.withStatus]
        | version x m =>
            have hx : v ≠ x := fun he => hne m (he ▸ rfl)
            simp [Write.onUser, hx]
        | _ => rfl
      by_cases hv : ∃ m, w = .version v m
      · obtain ⟨m, rfl⟩ := hv
        left
        simp [Write.onUser, User.withVersion, hall m List.mem_cons_self]
      · push Not at hv
        rcases hsome with hsome | hsome
        · left
          rw [hkeep hv, hsome]
        · right
          exact (List.mem_cons.mp hsome).resolve_left (Ne.symm (hv n))

/-- A commit leaves a user as it is, or with one more version under the user's row lock. -/
theorem commit_users {env : Env} {db db' : Db} {H : String → Prop} {t : Txn}
    (h : Versioned db H t) (hrest : t.rest = []) (ha : applyAll env db t.writes = some db')
    {v : String} {u : User} (hu : db.user v = some u) :
    ∃ u', db'.user v = some u' ∧
      ((u'.authzVersion = u.authzVersion ∧ ∀ r, db'.hasRole v r = db.hasRole v r) ∨
        (u'.authzVersion = u.authzVersion + 1 ∧ H v)) := by
  by_cases hv : ∃ op, t.call = .admin op ∧ op.target = v
  · obtain ⟨op, hop, rfl⟩ := hv
    have hwritten : ∃ n, .version op.target n ∈ t.writes := by
      rcases h.bumps op hop with ⟨hmem, -⟩ | ⟨-, hn⟩
      · rw [hrest] at hmem
        cases hmem
      · exact hn
    have hall : ∀ m, .version op.target m ∈ t.writes → m = u.authzVersion + 1 := by
      intro m hm
      obtain ⟨-, u', hu', hm⟩ := h.written op.target m hm
      rw [hu] at hu'
      rw [hm, Option.some.inj hu']
    obtain ⟨n, hn⟩ := hwritten
    obtain ⟨u', hu', hv'⟩ := version_applyAll hall hu (Or.inr (hall n hn ▸ hn)) ha
    exact ⟨u', hu', Or.inr ⟨hv', (h.written op.target n hn).1⟩⟩
  · have hother : ∀ w ∈ t.writes, w.userOf ≠ some v := by
      intro w hw he
      exact hv (makes_target (h.shape.writes w hw) he)
    have hsame : db'.user v = some u ∧ ∀ r, db'.hasRole v r = db.hasRole v r := by
      refine applyAll_keeps (P := fun db₁ => db₁.user v = some u ∧
        ∀ r, db₁.hasRole v r = db.hasRole v r) ?_ ⟨hu, fun _ => rfl⟩ ha
      intro w hw db₁ db₂ h₁ happly
      obtain ⟨huser, hrole⟩ := apply_other (hother w hw) happly
      exact ⟨huser.trans h₁.1, fun r => (hrole r).trans (h₁.2 r)⟩
    exact ⟨u, hsame.1, Or.inl ⟨rfl, hsame.2⟩⟩

/-- Attestations outlive commits: a past version stays past. -/
theorem attests_commit {env : Env} {db db' : Db} {H : String → Prop} {t : Txn}
    (h : Versioned db H t) (hrest : t.rest = []) (ha : applyAll env db t.writes = some db')
    {c : AccessClaims} (hc : Attests db c) : Attests db' c := by
  obtain ⟨u, hu, hle, hmatch⟩ := hc
  obtain ⟨u', hu', ⟨hv, hr⟩ | ⟨hv, -⟩⟩ := commit_users h hrest ha hu
  · refine ⟨u', hu', by rw [hv]; exact hle, ?_⟩
    intro heq
    simp only [Matches, hr]
    exact hmatch (heq.trans hv)
  · refine ⟨u', hu', by omega, ?_⟩
    intro heq
    omega

/-- The commit of another transaction, which holds other locks. -/
theorem versioned_commit {env : Env} {db db' : Db} {H H' : String → Prop} {t t' : Txn}
    (h : Versioned db H t) (hrest : t.rest = []) (ha : applyAll env db t.writes = some db')
    (hlocks : ∀ v, H' v → ¬ H v) (h' : Versioned db H' t') : Versioned db' H' t' := by
  have hsame : ∀ v u, H' v → db.user v = some u →
      ∃ u', db'.user v = some u' ∧ u'.authzVersion = u.authzVersion := by
    intro v u hH hu
    obtain ⟨u', hu', ⟨hv, -⟩ | ⟨-, hH'⟩⟩ := commit_users h hrest ha hu
    · exact ⟨u', hu', hv⟩
    · exact absurd hH' (hlocks v hH)
  refine ⟨h'.shape, h'.once, h'.bumps, ?_, ?_, ?_, ?_, ?_⟩
  · intro v n hn
    obtain ⟨hH, u, hu, hv⟩ := h'.written v n hn
    obtain ⟨u', hu', hv'⟩ := hsame v u hH hu
    exact ⟨hH, u', hu', by rw [hv', hv]⟩
  · intro op l hop he hmem hl
    obtain ⟨hH, u, hu, hv⟩ := h'.locked op l hop he hmem hl
    obtain ⟨u', hu', hv'⟩ := hsame op.target u hH hu
    exact ⟨hH, u', hu', by rw [hv', hv]⟩
  · intro v l hl hno
    obtain ⟨u, hu, hle⟩ := h'.loaded v l hl hno
    obtain ⟨u', hu', ⟨hv, -⟩ | ⟨hv, -⟩⟩ := commit_users h hrest ha hu
    · exact ⟨u', hu', by omega⟩
    · exact ⟨u', hu', by omega⟩
  · intro names v aud refresh kid hn hsign
    obtain ⟨l, u, hl, hu, hle, hroles⟩ := h'.names names v aud refresh kid hn hsign
    obtain ⟨u', hu', ⟨hv, hr⟩ | ⟨hv, -⟩⟩ := commit_users h hrest ha hu
    · refine ⟨l, u', hl, hu', by omega, ?_⟩
      intro heq r
      rw [hr]
      exact hroles (heq.trans hv) r
    · refine ⟨l, u', hl, hu', by omega, ?_⟩
      intro heq
      omega
  · intro b hb
    exact attests_commit h hrest ha (h'.signed b hb)

/-! ## Runs -/

theorem versioned_keeps (env : Env) :
    (engine env).Keeps (fun db out => ∀ b ∈ out, Attests db b.accessToken.claims) Versioned
      (fun s e => writesFresh s e = true) := by
  refine ⟨?_, ?_, ?_, ?_⟩
  · intro db c t h
    exact versioned_begin h
  · intro s tid i t k t' hq ht hI hm hlock
    obtain ⟨st, rest, hrest, hr⟩ := move_cases hm
    refine versioned_ran hI hrest hr ?_
    intro op l u hop he hf hl hu
    rw [hf] at hr
    have hk := hlock op.target (ran_lock hr)
    obtain ⟨call, rest', users, roles, added, writes, roleNames, bundle⟩ := t
    simp only at hop hrest hl
    subst hop hrest hf
    simp only [writesFresh, ht, he, hl, hu, Bool.not_true, Bool.false_or, Bool.or_eq_true,
      Bool.and_eq_true, decide_eq_true_eq] at hq
    rcases hq with ⟨hne, hne'⟩ | hq
    · exact absurd hk (by simp [hne, hne'])
    · exact hq
  · intro s tid i t db out _ _ hG hI hm
    obtain ⟨hrest, ha, rfl⟩ := move_commit hm
    intro b hb
    rcases List.mem_append.mp hb with hb | hb
    · exact attests_commit hI hrest ha (hI.signed b (Option.mem_toList.mp hb))
    · exact attests_commit hI hrest ha (hG b hb)
  · intro s tid i t db out H t' _ _ hI hm hlocks hI'
    obtain ⟨hrest, ha, -⟩ := move_commit hm
    exact versioned_commit hI hrest ha hlocks hI'

/-- Tokens of the current version carry the current authority where no version is written over
    another. -/
theorem current_authority (env : Env) (db : Db) (es : List (Event Call Time))
    (h : Along (engine env).step (fun s e => writesFresh s e = true) (.start db) es) :
    CurrentAuthority env db es := by
  intro b hb user hu hv
  have hG := ((versioned_keeps env).run (by simp) h).committed
  obtain ⟨u, hu', -, hmatch⟩ := hG b hb
  rw [hu] at hu'
  cases hu'
  exact hmatch hv

/-! ## A lost version -/

/-- `bootstrap_admin` has read `u`; the role `reviewer` is granted and a bundle issued before
    it goes on. -/
def overtaken : List (Event Call Time) :=
  .start 0 (.admin (.bootstrapAdmin "u")) :: stmts 0 2 ++
    .start 1 (.admin (.changeRole "a" "u" "reviewer" true)) :: stmts 1 10 ++
    .start 2 (.bundle "u" audience none "g2" (some "k")) :: stmts 2 5 ++ stmts 0 8

/-- Both operations write version 3. -/
theorem lost_bump : ¬ ∀ env db es, CurrentAuthority env db es := by
  intro h
  have hmatch := h plainEnv (run (step plainEnv) (.start .empty) loggedIn).db overtaken
    ⟨"u", ⟨"k", bundleClaims "u" 3 ["user", "reviewer"] audience 2⟩, "g2"⟩ (by decide +kernel)
    { id := "u", email := "u", passwordHash := some "pw", status := .active, authzVersion := 3 }
    (by decide +kernel) rfl
  have hadmin := (hmatch.1 "temis:admin").mpr ⟨"admin", by decide +kernel, rfl⟩
  exact absurd hadmin (by decide +kernel)

/-- The same calls at once, where `bootstrap_admin` has the row lock when the grant asks for it.
    The bundle is made of what was read before its commit. -/
def waiting : List (Event Call Time) :=
  .start 0 (.admin (.bootstrapAdmin "u")) :: stmts 0 6 ++
    .start 1 (.admin (.changeRole "a" "u" "reviewer" true)) :: stmts 1 4 ++
    .start 2 (.bundle "u" audience none "g2" (some "k")) :: stmts 2 2 ++
    stmts 0 3 ++ stmts 1 7 ++ stmts 2 3

/-- All three end; the operations write the versions 3 and 4. -/
theorem grant_waits :
    let db := (run (step plainEnv) (.start .empty) loggedIn).db
    ((run (engine plainEnv).step (.start db) waiting).db.user "u").map User.authzVersion = some 4 ∧
      (run (engine plainEnv).step (.start db) waiting).out.length = 1 ∧
      CurrentAuthority plainEnv db waiting :=
  ⟨by decide +kernel, by decide +kernel, current_authority plainEnv _ _ (by decide +kernel)⟩

end TemisLab.Sso
