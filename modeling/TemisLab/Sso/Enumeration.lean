/-
  What `POST /auth/login` and `POST /auth/password-reset/request` (`api/auth.py`) tell of accounts.
  A request runs its transactions one after the other, and requests come one after the other.

  A service that knows no account would answer by `blind`: a failed login, and a reset that is
  accepted.

  * `step_keeps`: no request changes a password, and a reset adds one token.
  * `answer_eq_blind`: with a wrong password the answer is that of `blind`.
  * `no_enumeration`: so two services answer alike, whatever accounts they have.
-/
import TemisLab.Sso.Requests

namespace TemisLab.Sso.Enumeration

open TemisLab.Lib

/-! ## The two endpoints -/

/-- The body of a request, as far as it has the fields that the endpoint reads. -/
inductive Post where
  | login (email password : String)
  | resetRequest (email : String)
  deriving DecidableEq, Repr

/-- The body of an answer. That of a refused `Credentials` FastAPI makes of the request alone. -/
inductive Body where
  | unprocessable (post : Post)
  | detail (text : String)
  | bundle (bundle : TokenBundle)
  | accepted
  | internalServerError
  deriving DecidableEq, Repr

structure Response where
  status : ℕ
  body : Body
  deriving DecidableEq, Repr

/-- The checks of `Credentials`. -/
def credentials (email password : String) : Bool :=
  PyText.contains "@" email && decide (email.length ≤ 320) && decide (12 ≤ password.length) &&
    decide (password.length ≤ 128)

/-- The tables, and `mailbox`. -/
structure Service where
  db : Db
  mailbox : String × Purpose → Option String

/-- A request with what its handling takes from outside: the clock of its first and second
    transaction, the tokens it would draw, and the active key. -/
structure Arrival where
  post : Post
  now : Time
  later : Time
  raw : String
  fresh : String
  activeKid : Option String
  deriving DecidableEq, Repr

def internalError : Response := ⟨500, .internalServerError⟩

/-- `login`. -/
def login (env : Env) (s : Service) (a : Arrival) (email password : String) : Response × Service :=
  if !credentials email password then (⟨422, .unprocessable (.login email password)⟩, s)
  else
    match authenticate env s.db email password a.now with
    | (.error .verificationRequired, db) =>
        (⟨403, .detail "email verification required"⟩, { s with db })
    | (.error .invalidCredentials, db) => (⟨401, .detail "invalid credentials"⟩, { s with db })
    | (.error _, db) => (internalError, { s with db })
    | (.ok who, db) =>
        match issueBundle env db who.userId audience none a.fresh a.activeKid a.later with
        | .error .activeUserRequired => (⟨401, .detail "active user required"⟩, { s with db })
        | .error _ => (internalError, { s with db })
        | .ok (bundle, db) => (⟨200, .bundle bundle⟩, { s with db })

/-- `reset_request`, with `request_password_reset` and `_issue_one_time`. -/
def resetRequest (env : Env) (s : Service) (a : Arrival) (email : String) : Response × Service :=
  match userByEmail env s.db email with
  | none => (⟨202, .accepted⟩, s)
  | some user =>
      match issueOneTime env s.db user.id .reset a.raw a.later with
      | none => (internalError, s)
      | some db =>
          (⟨202, .accepted⟩,
            ⟨db, Function.update s.mailbox (user.email, .reset) (some a.raw)⟩)

def serve (env : Env) (s : Service) (a : Arrival) : Response × Service :=
  match a.post with
  | .login email password => login env s a email password
  | .resetRequest email => resetRequest env s a email

def answer (env : Env) (s : Service) (a : Arrival) : Response := (serve env s a).1

def step (env : Env) (s : Service) (a : Arrival) : Service := (serve env s a).2

/-- What is answered to a run of requests. -/
def responses (env : Env) (s : Service) (arrivals : List Arrival) : List Response :=
  outputs (step env) (answer env) s arrivals

/-! ## The service without accounts -/

def blind : Post → Response
  | .login email password =>
      if !credentials email password then ⟨422, .unprocessable (.login email password)⟩
      else ⟨401, .detail "invalid credentials"⟩
  | .resetRequest _ => ⟨202, .accepted⟩

/-- The password hash that is stored for an address. -/
def passwordOf (env : Env) (db : Db) (email : String) : Option String :=
  (userByEmail env db email).bind User.passwordHash

/-- The password is not the one of the account, if there is one with a password. -/
def Wrong (env : Env) (db : Db) : Post → Prop
  | .login email password =>
      ∀ hash, passwordOf env db email = some hash → env.verifyPassword hash password = false
  | .resetRequest _ => True

instance (env : Env) (db : Db) : ∀ post, Decidable (Wrong env db post)
  | .login email password =>
      inferInstanceAs (Decidable (∀ hash ∈ passwordOf env db email,
        env.verifyPassword hash password = false))
  | .resetRequest _ => inferInstanceAs (Decidable True)

/-- The tokens that are drawn have digests of their own, and none is stored. -/
structure Fresh (env : Env) (db : Db) (arrivals : List Arrival) : Prop where
  distinct : (arrivals.map fun a => env.sha256 a.raw).Nodup
  unused : ∀ a ∈ arrivals, db.oneTimeTokens.get (env.sha256 a.raw) = none

/-! ## What a request changes -/

structure Keeps (env : Env) (a : Arrival) (db db' : Db) : Prop where
  password : ∀ email, passwordOf env db' email = passwordOf env db email
  token : ∀ digest, digest ≠ env.sha256 a.raw →
    db'.oneTimeTokens.get digest = db.oneTimeTokens.get digest

variable {env : Env}

theorem userByEmail_setUser (db : Db) (uid email : String) {f : User → User}
    (hf : ∀ u, (f u).id = u.id) (hemail : ∀ u, (f u).email = u.email) :
    userByEmail env (db.setUser uid f hf) email =
      (userByEmail env db email).map fun u => if u.id = uid then f u else u := by
  have hfound : ((fun u : User => decide (u.email = env.normalize email)) ∘
      fun u => if decide (u.id = uid) = true then f u else u) =
        fun u => decide (u.email = env.normalize email) := by
    funext u
    by_cases hid : u.id = uid <;> simp [hid, hemail]
  unfold userByEmail Db.setUser Table.modify
  rw [List.find?_map, hfound]
  simp

theorem passwordOf_setUser (db : Db) (uid email : String) {f : User → User}
    (hf : ∀ u, (f u).id = u.id) (hemail : ∀ u, (f u).email = u.email)
    (hpassword : ∀ u, (f u).passwordHash = u.passwordHash) :
    passwordOf env (db.setUser uid f hf) email = passwordOf env db email := by
  unfold passwordOf
  rw [userByEmail_setUser db uid email hf hemail]
  cases userByEmail env db email with
  | none => rfl
  | some u => by_cases hid : u.id = uid <;> simp [hid, hpassword]

variable {a : Arrival}

theorem Keeps.refl (db : Db) : Keeps env a db db := ⟨fun _ => rfl, fun _ _ => rfl⟩

theorem Keeps.trans {db₁ db₂ db₃ : Db} (h : Keeps env a db₁ db₂) (h' : Keeps env a db₂ db₃) :
    Keeps env a db₁ db₃ :=
  ⟨fun email => (h'.password email).trans (h.password email),
    fun digest hne => (h'.token digest hne).trans (h.token digest hne)⟩

theorem keeps_authenticate (db : Db) (email password : String) (now : Time) :
    Keeps env a db (authenticate env db email password now).2 := by
  have hset : ∀ (uid : String) (f : User → User) (hf : ∀ u, (f u).id = u.id),
      (∀ u, (f u).email = u.email) → (∀ u, (f u).passwordHash = u.passwordHash) →
        Keeps env a db (db.setUser uid f hf) := fun uid f hf hemail hpassword =>
    ⟨fun email => passwordOf_setUser db uid email hf hemail hpassword, fun _ _ => rfl⟩
  unfold authenticate
  split
  · exact .refl db
  · next user _ =>
      split
      · exact .refl db
      · split_ifs
        · exact .refl db
        · exact hset user.id (User.recordFailure now) (fun _ => rfl) (fun _ => rfl) fun _ => rfl
        · exact .refl db
        · exact .refl db
        · exact hset user.id User.clearFailures (fun _ => rfl) (fun _ => rfl) fun _ => rfl

theorem keeps_issueBundle {db db' : Db} {userId aud fresh : String} {activeKid : Option String}
    {now : Time} {b : TokenBundle}
    (h : issueBundle env db userId aud none fresh activeKid now = .ok (b, db')) :
    Keeps env a db db' := by
  obtain ⟨-, -, -, -, -, -, -, hrefresh⟩ := issueBundle_eq_ok h
  rcases bundleRefresh_eq_some hrefresh with ⟨hno, -⟩ | ⟨-, hissue⟩
  · cases hno
  · obtain ⟨grants, grant, -, -, -, -, -, rfl⟩ := issueRefresh_eq_some hissue
    exact ⟨fun _ => rfl, fun _ _ => rfl⟩

theorem keeps_issueOneTime {db db' : Db} {userId : String} {purpose : Purpose} {now : Time}
    (h : issueOneTime env db userId purpose a.raw now = some db') : Keeps env a db db' := by
  obtain ⟨tokens, hinsert, rfl⟩ := Option.map_eq_some_iff.mp h
  refine ⟨fun _ => rfl, ?_⟩
  intro digest hne
  exact (Table.get_insert hinsert digest).trans (if_neg (Ne.symm hne))

/-- No request changes a password, and a request adds at most its own token. -/
theorem step_keeps (s : Service) : Keeps env a s.db (step env s a).db := by
  unfold step serve
  split
  · next email password _ =>
      have hauth : Keeps env a s.db (authenticate env s.db email password a.now).2 :=
        keeps_authenticate s.db email password a.now
      unfold login
      split
      · exact .refl s.db
      · split
        · next heq => rw [heq] at hauth; exact hauth
        · next heq => rw [heq] at hauth; exact hauth
        · next heq => rw [heq] at hauth; exact hauth
        · next heq =>
            rw [heq] at hauth
            split
            · exact hauth
            · exact hauth
            · next hbundle => exact hauth.trans (keeps_issueBundle hbundle)
  · unfold resetRequest
    split
    · exact .refl s.db
    · split
      · exact .refl s.db
      · next hissue => exact keeps_issueOneTime hissue

/-! ## What is answered -/

/-- A wrong password is refused, whatever the account is. -/
theorem authenticate_wrong {db : Db} {email password : String} (now : Time)
    (hwrong : Wrong env db (.login email password)) :
    (authenticate env db email password now).1 = .error .invalidCredentials := by
  unfold authenticate
  split
  · rfl
  · next user huser =>
      split
      · rfl
      · next hash hhash =>
          have hverify : env.verifyPassword hash password = false :=
            hwrong hash (by rw [passwordOf, huser, Option.bind_some, hhash])
          simp only [hverify]
          split <;> rfl

theorem login_wrong {s : Service} {email password : String}
    (hwrong : Wrong env s.db (.login email password)) :
    (login env s a email password).1 = blind (.login email password) := by
  unfold login blind
  dsimp only
  by_cases hvalid : (!credentials email password) = true
  · rw [if_pos hvalid, if_pos hvalid]
  · rw [if_neg hvalid, if_neg hvalid]
    rcases hauth : authenticate env s.db email password a.now with ⟨outcome, db⟩
    have hrefused := authenticate_wrong a.now hwrong
    rw [hauth] at hrefused
    cases hrefused
    rfl

/-- A reset for an account fails only with a token that is there already. -/
theorem resetRequest_fresh {s : Service} (email : String)
    (hfresh : s.db.oneTimeTokens.get (env.sha256 a.raw) = none) :
    (resetRequest env s a email).1 = blind (.resetRequest email) := by
  unfold resetRequest blind
  split
  · rfl
  · next user _ =>
      split
      · next hissue =>
          obtain ⟨token, htoken⟩ := Table.insert_eq_none.mp (Option.map_eq_none_iff.mp hissue)
          rw [key_oneTimeToken, hfresh] at htoken
          cases htoken
      · rfl

/-- With a wrong password and a token that is new the accounts do not show. -/
theorem answer_eq_blind {s : Service} (hwrong : Wrong env s.db a.post)
    (hfresh : s.db.oneTimeTokens.get (env.sha256 a.raw) = none) :
    answer env s a = blind a.post := by
  unfold answer serve
  cases hpost : a.post with
  | login email password =>
      rw [hpost] at hwrong
      exact login_wrong hwrong
  | resetRequest email => exact resetRequest_fresh email hfresh

/-! ## Runs -/

/-- What is known of a service to which `arrivals` are still to come. -/
structure Ready (env : Env) (s : Service) (arrivals : List Arrival) : Prop where
  wrong : ∀ a ∈ arrivals, Wrong env s.db a.post
  fresh : Fresh env s.db arrivals

theorem wrong_of_password {db db' : Db} {post : Post}
    (hpassword : ∀ email, passwordOf env db' email = passwordOf env db email)
    (h : Wrong env db post) : Wrong env db' post := by
  cases post with
  | login email password => exact fun hash hhash => h hash ((hpassword email).symm.trans hhash)
  | resetRequest email => exact h

theorem ready_step {s : Service} {arrivals : List Arrival} (h : Ready env s (a :: arrivals)) :
    Ready env (step env s a) arrivals := by
  have hkeeps : Keeps env a s.db (step env s a).db := step_keeps s
  obtain ⟨hother, hdistinct⟩ := List.nodup_cons.mp h.fresh.distinct
  refine ⟨?_, hdistinct, ?_⟩
  · intro b hb
    exact wrong_of_password hkeeps.password (h.wrong b (List.mem_cons_of_mem a hb))
  · intro b hb
    have hne : env.sha256 b.raw ≠ env.sha256 a.raw := fun he =>
      hother (List.mem_map.mpr ⟨b, hb, he⟩)
    rw [hkeeps.token _ hne]
    exact h.fresh.unused b (List.mem_cons_of_mem a hb)

/-- A run of requests with wrong passwords is answered as by the service without accounts. -/
theorem responses_eq_blind {s : Service} {arrivals : List Arrival} (h : Ready env s arrivals) :
    responses env s arrivals = arrivals.map fun a => blind a.post :=
  outputs_eq_map (step env) (answer env) (fun a => blind a.post) (Ready env)
    (fun _ a _ h => answer_eq_blind (h.wrong a List.mem_cons_self)
      (h.fresh.unused a List.mem_cons_self))
    (fun _ _ _ h => ready_step h) h

/-- Two services with whatever accounts answer the same requests alike, at whatever times and with
    whatever draws, if the passwords are wrong in both. -/
theorem no_enumeration (env : Env) (s t : Service) (as bs : List Arrival)
    (hsame : as.map Arrival.post = bs.map Arrival.post)
    (hs : ∀ a ∈ as, Wrong env s.db a.post) (ht : ∀ b ∈ bs, Wrong env t.db b.post)
    (hfresh : Fresh env s.db as) (hfresh' : Fresh env t.db bs) :
    responses env s as = responses env t bs := by
  rw [responses_eq_blind ⟨hs, hfresh⟩, responses_eq_blind ⟨ht, hfresh'⟩]
  calc as.map (fun a => blind a.post) = (as.map Arrival.post).map blind := by rw [List.map_map]; rfl
    _ = (bs.map Arrival.post).map blind := by rw [hsame]
    _ = bs.map fun b => blind b.post := by rw [List.map_map]; rfl

/-- A database with an account and one without: the account is locked by the third login. -/
def withAccount : Service :=
  ⟨(run (Sso.step plainEnv) (.start .empty)
    [.register 0 "u" "learner@mail.test" "correct horse battery", .issueOneTime 0 "v" 0,
     .consumeVerify 1 "v" 60, .activate 1]).db, fun _ => none⟩

def guesses : List Arrival :=
  [⟨.login "learner@mail.test" "incorrect password", 100, 100, "r0", "g0", some "k"⟩,
    ⟨.login " learner@mail.test" "another password", 101, 101, "r1", "g1", some "k"⟩,
    ⟨.resetRequest "learner@mail.test", 102, 102, "r2", "g2", some "k"⟩,
    ⟨.login "learner@mail.test" "yet another one", 103, 103, "r3", "g3", some "k"⟩,
    ⟨.login "learner@mail.test" "incorrect password", 104, 104, "r4", "g4", some "k"⟩]

theorem guesses_tell_nothing :
    responses plainEnv withAccount guesses = responses plainEnv ⟨.empty, fun _ => none⟩ guesses :=
  no_enumeration plainEnv withAccount ⟨.empty, fun _ => none⟩ guesses guesses rfl
    (by decide +kernel) (by decide +kernel) ⟨by decide, by decide +kernel⟩ ⟨by decide, by decide⟩

end TemisLab.Sso.Enumeration
