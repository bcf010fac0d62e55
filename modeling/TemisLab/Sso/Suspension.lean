/-
  Suspensions. `approve_user` by a current admin and `bootstrap_admin` lift one; no other
  operation is meant to.

  * `SuspensionLasts`: in a run, no other transaction changes the status of a suspended user,
    and from a `suspend_user` to the next lifting of it no bundle is issued for the user.
  * `late_verification`: a run in which a user suspended while still pending redeems the
    verification token sent before; the second block of `verify_email` sets the status
    `active` whatever it was.
  * `suspension_lasts_iff`: this is the only way. The property holds of exactly the runs in
    which no such block meets a suspended user.
-/
import TemisLab.Sso.Requests

namespace TemisLab.Sso

open TemisLab.Lib

/-- The user's row has the status `suspended`. -/
def Suspended (db : Db) (v : String) : Prop := ∃ user, db.user v = some user ∧
  user.status = .suspended

/-- The transaction is one that may lift the suspension of `v`. -/
def Lifts (db : Db) (v : String) : Tx → Prop
  | .admin (.bootstrapAdmin u) _ => u = v
  | .admin (.approveUser a t _) _ => t = v ∧ db.isCurrentAdmin a = true
  | _ => False

/-- The bundles issued for one user. -/
def Sys.bundlesOf (s : Sys) (v : String) : List Issued :=
  s.issued.filter fun b => b.bundle.userId = v

/-- In the run of `ls` from `db`, only an administrator lifts a suspension. -/
structure SuspensionLasts (env : Env) (db : Db) (ls : List Tx) : Prop where
  status : ∀ pre l post, ls = pre ++ l :: post →
    let s := run (step env) (.start db) pre
    ∀ v, Suspended s.db v → ¬ Lifts s.db v l → Suspended (step env s l).db v
  bundles : ∀ pre a v reason now mid post,
    ls = pre ++ .admin (.suspendUser a v reason) now :: (mid ++ post) →
    let before := run (step env) (.start db) pre
    let after := step env before (.admin (.suspendUser a v reason) now)
    AdminOp.exec env before.db now (.suspendUser a v reason) = .ok after.db →
    Along (step env) (fun s l => ¬ Lifts s.db v l) after mid →
    (run (step env) after mid).bundlesOf v = after.bundlesOf v

/-- The activation of a verified user does not meet a suspended one. -/
def VerifiesUnsuspended (s : Sys) : Tx → Prop
  | .activate rid => ∀ v, s.pending rid = some (.activate v) → ¬ Suspended s.db v
  | _ => True

/-- The transaction is the activation of `v` after a late verification: it meets `v` suspended. -/
def VerifiesLate (v : String) (s : Sys) : Tx → Prop
  | .activate rid => s.pending rid = some (.activate v) ∧ Suspended s.db v
  | _ => False

theorem VerifiesUnsuspended.not_late {s : Sys} {l : Tx} (h : VerifiesUnsuspended s l)
    (v : String) : ¬ VerifiesLate v s l := by
  cases l with
  | activate rid => exact fun hlate => h v hlate.1 hlate.2
  | _ => exact id

theorem Suspended.of_steady {db db' : Db} {v : String} (h : Suspended db v)
    (hs : db.Steady db') : Suspended db' v := by
  obtain ⟨user, hu, hst⟩ := h
  obtain ⟨user', hu', hst', -⟩ := hs.users v user hu
  exact ⟨user', hu', hst'.trans hst⟩

/-- The effect of an admin operation that does not lift the suspension. -/
theorem Suspended.of_effect {op : AdminOp} {now : Time} {db db' : Db} {v : String}
    (h : Suspended db v) (he : op.Effect now db db') (hl : ¬ Lifts db v (.admin op now)) :
    Suspended db' v := by
  obtain ⟨user, hu, hst⟩ := h
  by_cases hv : v = op.target
  · rw [hv] at hu
    refine ⟨_, hv ▸ he.target user hu, ?_⟩
    show op.statusAfter user.status = .suspended
    cases op with
    | bootstrapAdmin u => exact absurd hv.symm hl
    | approveUser a t fail => exact absurd ⟨hv.symm, he.authority a rfl⟩ hl
    | suspendUser a t reason => rfl
    | changeRole a t role grant => exact hst
    | revokeSessions a t => exact hst
  · exact ⟨user, by rw [he.others v hv, hu], hst⟩

/-- The step lemma: outside the user's own late verification a suspension stands until it is
    lifted. -/
theorem suspended_step {env : Env} {s : Sys} {l : Tx} {v : String} (h : Suspended s.db v)
    (hl : ¬ Lifts s.db v l) (hq : ¬ VerifiesLate v s l) :
    Suspended (step env s l).db v := by
  cases l with
  | activate rid =>
      rcases step_activate env s rid with ⟨w, hp, he⟩ | he
      · have hne : v ≠ w := by
          intro hvw
          exact hq ⟨hvw ▸ hp, h⟩
        obtain ⟨user, hu, hst⟩ := h
        rw [he]
        exact ⟨user, by rw [user_setStatus, if_neg hne, hu], hst⟩
      · rw [he]
        exact h
  | admin op now =>
      rcases step_admin env s op now with he | he
      · exact h.of_effect he hl
      · rw [he]
        exact h
  | _ => exact h.of_steady (step_steady env s _ (by simp) (by simp))

/-- No bundle is issued for a suspended user. -/
theorem bundlesOf_step {env : Env} {s : Sys} {l : Tx} {v : String} (h : Suspended s.db v) :
    (step env s l).bundlesOf v = s.bundlesOf v := by
  have hspec := step_cases env s l
  generalize step env s l = s' at hspec ⊢
  cases hspec with
  | quiet hissued hrotations hpending => rw [Sys.bundlesOf, hissued, Sys.bundlesOf]
  | rotated => rfl
  | @bundled rid userId aud fresh refreshToken activeKid via now bundle db hpending hissue =>
      obtain ⟨user, kid, hu, hact, -, hid, -⟩ := issueBundle_eq_ok hissue
      obtain ⟨user', hu', hst⟩ := h
      have hne : bundle.userId ≠ v := by
        intro he
        rw [← he, hid, hu] at hu'
        rw [← Option.some.inj hu', hact] at hst
        cases hst
      simp [Sys.bundlesOf, hne]

/-- The suspension still stands at the end of a run that does not lift it. -/
theorem suspended_run {env : Env} {s : Sys} {v : String} (h : Suspended s.db v) {ls : List Tx}
    (hl : Along (step env) (fun s l => ¬ Lifts s.db v l ∧ ¬ VerifiesLate v s l) s ls) :
    Suspended (run (step env) s ls).db v :=
  run_invariant (step env) (fun t => Suspended t.db v)
    (fun _ _ ht hq => suspended_step ht hq.1 hq.2) h hl

/-- A suspension that is not lifted shuts the user out for the rest of the run. -/
theorem bundlesOf_run {env : Env} {s : Sys} {v : String} (h : Suspended s.db v) {ls : List Tx}
    (hl : Along (step env) (fun s l => ¬ Lifts s.db v l ∧ ¬ VerifiesLate v s l) s ls) :
    (run (step env) s ls).bundlesOf v = s.bundlesOf v := by
  refine (run_invariant (step env)
    (fun t => Suspended t.db v ∧ t.bundlesOf v = s.bundlesOf v) ?_ ⟨h, rfl⟩ hl).2
  intro t l ht hq
  exact ⟨suspended_step ht.1 hq.1 hq.2, (bundlesOf_step ht.1).trans ht.2⟩

/-- `suspend_user` suspends. -/
theorem suspended_of_exec {env : Env} {db db' : Db} {a v reason : String} {now : Time}
    (h : AdminOp.exec env db now (.suspendUser a v reason) = .ok db') : Suspended db' v := by
  have he := AdminOp.exec_effect h
  obtain ⟨user, hu⟩ := he.found
  exact ⟨_, he.target user hu, rfl⟩

/-- The runs in which a suspension lasts are those without a late verification. -/
theorem suspension_lasts_iff (env : Env) (db : Db) (ls : List Tx) :
    SuspensionLasts env db ls ↔ Along (step env) VerifiesUnsuspended (.start db) ls := by
  refine ⟨?_, ?_⟩
  · intro h
    rw [along_iff]
    intro pre l post hls
    cases l with
    | activate rid =>
        intro v hp hv
        have hstill := h.status pre (.activate rid) post hls v hv id
        obtain ⟨user, hu, -⟩ := hv
        -- the activation goes through, so the user is not suspended after it
        have hdb : (step env (run (step env) (.start db) pre) (.activate rid)).db =
            setStatus (run (step env) (.start db) pre).db v .active := by
          simp only [step, hp, activateUser, hu]
          rfl
        obtain ⟨user', hu', hst⟩ := hstill
        rw [hdb, user_setStatus, if_pos rfl, hu] at hu'
        cases hu'
        cases hst
    | _ => trivial
  · intro h
    refine ⟨?_, ?_⟩
    · intro pre l post hls s v hv hl
      have hq := (along_iff (step env) (.start db) ls).mp h pre l post hls
      exact suspended_step hv hl (hq.not_late v)
    · intro pre a v reason now mid post hls before after hok hl
      have hrest : Along (step env) VerifiesUnsuspended after mid := by
        rw [hls, along_append] at h
        exact ((along_append (step env) after mid post).mp h.2.2).1
      have hquiet : Along (step env) (fun s l => ¬ VerifiesLate v s l) after mid :=
        hrest.mono fun s l hq => hq.not_late v
      exact bundlesOf_run (suspended_of_exec hok) (hl.and hquiet)

/-! ## A suspension lifted by its own user -/

/-- `u` registers and is sent the token `t`; the admin `a` suspends `u`. -/
def suspendedEarly : List Tx :=
  [.register 0 "a" "a" "pw", .admin (.bootstrapAdmin "a") 0,
   .register 1 "u" "u" "pw", .issueOneTime 1 "t" 0]

/-- `u` redeems `t` and logs in. -/
def verifiedLate : List Tx :=
  [.consumeVerify 2 "t" 2, .activate 2, .authenticate 3 "u" "pw" 3, .bundle 3 "g" (some "k") 3]

/-- The suspended user verifies the address and is given a bundle. -/
theorem late_verification : ¬ ∀ env db ls, SuspensionLasts env db ls := by
  intro h
  have hsame := (h plainEnv .empty
    (suspendedEarly ++ .admin (.suspendUser "a" "u" "abuse") 1 :: (verifiedLate ++ []))).bundles
    suspendedEarly "a" "u" "abuse" 1 verifiedLate [] rfl (by decide +kernel)
    (by simp [verifiedLate, Along, Lifts])
  exact absurd hsame (by decide +kernel)

end TemisLab.Sso
