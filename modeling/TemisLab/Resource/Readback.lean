/-
  The authority that `issue_access` (`tokens.py`) signs, and what `authenticate` and `require_scope`
  (`resource_api/auth.py`) read back of it.

  PyJWT is a parameter: the claims of a token that it accepts are those that were signed
  (`Jwt.RoundTrips`).

  * `readOff_run`: in every run, a `Principal` is read off the claims that were verified.
  * `principal_of_issued`: it has the issued subject, version and roles, and the scopes that were
    joined.
  * `authority_read_back`: what was granted is read back exactly if the list of scopes is not empty:
    `scopes or ["profile:read"]` makes an empty list one with a scope.
-/
import TemisLab.Resource.Attestation

namespace TemisLab.Resource

open TemisLab.Lib TemisLab.Sso TemisLab.Keyring

/-- The arguments of `issue_access`. -/
structure Grant where
  userId : String
  roles : List String
  audience : String
  clientId : String
  scopes : List String
  authzVersion : ℤ
  deriving DecidableEq, Repr

/-- The claims that are signed for them. -/
def Grant.claims (g : Grant) (now : Time) : AccessClaims :=
  accessClaims g.userId g.roles g.audience g.clientId g.scopes g.authzVersion now

/-- The claims as `sign_claims` gets them, with the dates as `jwt.encode` writes them. -/
def payload (c : AccessClaims) : Dict :=
  [("iss", .str c.iss), ("aud", .str c.aud), ("sub", .str c.sub), ("azp", .str c.azp),
    ("scope", .str c.scope), ("https://temis.lab/roles", .list (c.roles.map .str)),
    ("authz_version", .int c.authzVersion), ("auth_time", .int c.authTime), ("iat", .int c.iat),
    ("exp", .int c.exp)]

/-- `require_scope`; the error is the text of the `ScopeDenied`. -/
def requireScope (principal : Principal) (required : String) : Except String Unit :=
  if required ∉ principal.scopes then .error ("scope required: " ++ required) else .ok ()

/-- What was granted is what a `Principal` has. -/
structure ReadsBack (g : Grant) (p : Principal) : Prop where
  subject : p.subject = g.userId
  authzVersion : p.authzVersion = g.authzVersion
  roles : p.roles = g.roles.toFinset
  scopes : p.scopes = g.scopes.toFinset
  required : ∀ scope, requireScope p scope = .ok () ↔ scope ∈ g.scopes

variable {Token : Type}

/-- `jwt.decode` compares the issuer, and returns the claims that were signed. -/
structure Jwt.RoundTrips (J : Jwt Token) (encode : AccessToken → Token) : Prop where
  issuer : J.ChecksIssuer
  payload : ∀ key issuer audience wall t claims,
    J.decode key issuer audience wall (encode t) = some claims →
    ∀ name, claims.lookup name = (payload t.claims).lookup name

/-! ## A `Principal` and its claims -/

/-- The scopes and roles of a `Principal` are those of the verified claims. -/
structure ReadOff (J : Jwt Token) (p : Principal) (v : Verified) : Prop where
  scopes : ∃ scope, v.claims.lookup "scope" = some scope ∧
    p.scopes = (PyText.split (J.str scope)).toFinset
  roles : p.roles = roleSet J v.claims

/-- Every call that has returned did so with such a `Principal`. -/
def AllRead (J : Jwt Token) (s : Service Token) : Prop :=
  ∀ e ∈ s.ended, ∀ p v, e.outcome = .returned p v → ReadOff J p v

variable {cfg : Settings} {J : Jwt Token} {s : Service Token}

theorem AllRead.refuse (h : AllRead J s) (a : Attempt Token) (reason : Refusal) :
    AllRead J (s.refuse a reason).1 := by
  intro e he p v ho
  rcases List.mem_cons.mp he with rfl | he
  · cases ho
  · exact h e he p v ho

theorem AllRead.conclude (h : AllRead J s) (a : Attempt Token) (v : Verified) :
    AllRead J (s.conclude J a v).1 := by
  unfold Service.conclude
  split
  · exact h.refuse a .missingScope
  · next scope hscope =>
      intro e he p v' ho
      rcases List.mem_cons.mp he with rfl | he
      · cases ho
        exact ⟨⟨scope, hscope, rfl⟩, rfl⟩
      · exact h e he p v' ho

theorem AllRead.verify (h : AllRead J s) (a : Attempt Token) (kid : String) (key : PublicKey)
    (wall : Time) : AllRead J (s.verify cfg J a kid key wall).1 := by
  unfold Service.verify
  split
  · exact h.refuse a _
  · split
    · exact h.refuse a _
    · dsimp only
      split
      · exact h.conclude a _
      · exact h

theorem AllRead.select (h : AllRead J s) (a : Attempt Token) (kid : String) (wall : Time) :
    AllRead J (s.select cfg J a kid wall).1 := by
  unfold Service.select
  split
  · exact h.verify a kid _ wall
  · split
    · exact h.refuse a _
    · exact h

theorem AllRead.forget (h : AllRead J s) (a : Attempt Token) (kid : String) :
    AllRead J (s.forget cfg a kid).1 := AllRead.refuse (s := { s with cache := _ }) h a _

theorem AllRead.advance (h : AllRead J s) (i : Input) (t : Task Token) :
    AllRead J (s.advance cfg J i t).1 := by
  have ha := advance_cases cfg J i s t
  generalize s.advance cfg J i t = r at ha ⊢
  cases ha with
  | idle | expired | expires | forces => exact h
  | malformed | cooling | rejected | negative | coolingUnknown | rejectedUnknown | denied =>
      exact h.refuse _ _
  | fresh | refreshed | bridged => exact h.select _ _ _
  | accepted a kid document keys =>
      exact AllRead.select (s := s.accept cfg document keys) h a kid _
  | outlasted a kid => exact AllRead.select (s := s.coolDown cfg) h a kid _
  | cooled a | cooledUnknown a => exact AllRead.refuse (s := s.coolDown cfg) h a _
  | appeared a kid missed key => exact h.verify a kid key _
  | spared a kid => exact h.forget a kid
  | loaded a kid document keys key =>
      exact AllRead.verify (s := s.accept cfg document keys) h a kid key _
  | missing a kid document keys =>
      exact AllRead.forget (s := s.accept cfg document keys) h a kid
  | confirmed a v => exact AllRead.conclude (s := s.confirm cfg v) h a v

theorem allRead_keeps (cfg : Settings) (J : Jwt Token) :
    (verifier cfg J).Keeps (AllRead J) (fun _ _ _ => True) fun _ _ => True :=
  service_keeps cfg J (fun _ _ h => h) fun i _ t h => h.advance i t

theorem readOff_run (cfg : Settings) (J : Jwt Token) (clock : Time)
    (events : List (Signal ℕ Token Input)) :
    AllRead J (run (verifier cfg J).signal ((verifier cfg J).start (.start Token clock))
      events).shared := by
  have h0 : AllRead J (.start Token clock) := fun _ he => absurd he List.not_mem_nil
  exact ((allRead_keeps cfg J).always h0 events).shared

/-! ## What is issued is what is read -/

/-- The scopes that `issue_access` joins. -/
def Grant.joined (g : Grant) : List String :=
  if g.scopes.isEmpty then ["profile:read"] else g.scopes

theorem word_joined {g : Grant} (h : ∀ scope ∈ g.scopes, PyText.Word scope) :
    ∀ scope ∈ g.joined, PyText.Word scope := by
  unfold Grant.joined
  split
  · intro scope hscope
    rw [List.mem_singleton.mp hscope]
    decide
  · exact h

theorem requireScope_eq_ok {p : Principal} {required : String} :
    requireScope p required = .ok () ↔ required ∈ p.scopes := by
  unfold requireScope
  split
  · next hnot => exact iff_of_false nofun hnot
  · next hmem => exact iff_of_true rfl (not_not.mp hmem)

/-- The claims of a `Principal` of an issued token are the issued ones. -/
theorem claims_of_issued {encode : AccessToken → Token} (hJ : J.RoundTrips encode)
    {e : Ended Token} {p : Principal} {v : Verified} {t : AccessToken}
    (ha : Attested cfg J s e p v) (htoken : e.attempt.token = encode t) (name : String) :
    v.claims.lookup name = (payload t.claims).lookup name := by
  obtain ⟨wall, hdecoded⟩ := ha.decoded
  rw [htoken] at hdecoded
  exact hJ.payload _ _ _ _ _ _ hdecoded name

/-- The roles of the claim are read back as they were signed. -/
theorem roleSet_payload {claims : Dict} {c : AccessClaims}
    (h : ∀ name, claims.lookup name = (payload c).lookup name) :
    roleSet J claims = c.roles.toFinset := by
  have hroles : claims.lookup "https://temis.lab/roles" = some (.list (c.roles.map .str)) :=
    h "https://temis.lab/roles"
  have hstr : J.str ∘ Json.str = id := rfl
  unfold roleSet
  rw [hroles]
  dsimp only
  rw [List.map_map, hstr, List.map_id]

/-- What a `Principal` of an issued token has. -/
structure OfIssued (g : Grant) (p : Principal) : Prop where
  subject : p.subject = g.userId
  authzVersion : p.authzVersion = g.authzVersion
  roles : p.roles = g.roles.toFinset
  scopes : p.scopes = g.joined.toFinset

/-- Subject, version and roles are those that were granted, and the scopes those that were
    joined. -/
theorem principal_of_issued {encode : AccessToken → Token} (hJ : J.RoundTrips encode) {g : Grant}
    (hwords : ∀ scope ∈ g.scopes, PyText.Word scope) {activeKid : Option String} {now : Time}
    {t : AccessToken} (ht : issueAccess activeKid (g.claims now) = some t) {e : Ended Token}
    {p : Principal} {v : Verified} (htoken : e.attempt.token = encode t)
    (ha : Attested cfg J s e p v) (hread : ReadOff J p v) : OfIssued g p := by
  obtain ⟨kid, -, rfl⟩ := Option.map_eq_some_iff.mp ht
  have hclaims := claims_of_issued hJ ha htoken
  obtain ⟨hsub, hversion, -⟩ := ha.principal
  obtain ⟨scope, hscope, hscopes⟩ := hread.scopes
  refine ⟨?_, ?_, ?_, ?_⟩
  · rw [hclaims] at hsub
    exact (Json.str.inj (Option.some.inj hsub)).symm
  · unfold Dict.int at hversion
    rw [hclaims] at hversion
    exact (Option.some.inj hversion).symm
  · rw [hread.roles]
    exact roleSet_payload hclaims
  · rw [hclaims] at hscope
    cases hscope
    show p.scopes = _
    rw [hscopes]
    show (PyText.split (PyText.join " " g.joined)).toFinset = _
    rw [PyText.split_join (word_joined hwords)]

/-- In every run, a call that accepts an issued token reads back what was granted exactly if some
    scope was. -/
theorem authority_read_back (cfg : Settings) (J : Jwt Token) (encode : AccessToken → Token)
    (hJ : J.RoundTrips encode) (clock : Time) (events : List (Signal ℕ Token Input)) (g : Grant)
    (hwords : ∀ scope ∈ g.scopes, PyText.Word scope) {activeKid : Option String} {now : Time}
    {t : AccessToken} (ht : issueAccess activeKid (g.claims now) = some t) {e : Ended Token}
    (he : e ∈ (run (verifier cfg J).signal ((verifier cfg J).start (.start Token clock))
      events).shared.ended)
    (htoken : e.attempt.token = encode t) {p : Principal} {v : Verified}
    (ho : e.outcome = .returned p v) : ReadsBack g p ↔ g.scopes ≠ [] := by
  have hp := principal_of_issued hJ hwords ht htoken
    (principal_attested cfg J hJ.issuer clock events e he p v ho)
    (readOff_run cfg J clock events e he p v ho)
  constructor
  · intro hback hnil
    -- the scope that stands in for an empty list is one of the `Principal`'s
    have hscopes := hp.scopes.symm.trans hback.scopes
    unfold Grant.joined at hscopes
    rw [hnil] at hscopes
    revert hscopes
    decide
  · intro hne
    have hjoined : g.joined = g.scopes := by
      unfold Grant.joined
      rw [if_neg (by simpa using hne)]
    have hscopes := hp.scopes
    rw [hjoined] at hscopes
    refine ⟨hp.subject, hp.authzVersion, hp.roles, hscopes, ?_⟩
    intro scope
    rw [requireScope_eq_ok, hscopes, List.mem_toFinset]

/-! ## Sample runs -/

theorem plainJwt_roundTrips : plainJwt.RoundTrips plainToken := by
  refine ⟨plainJwt_issuer, ?_⟩
  intro key issuer audience wall t claims h
  rw [(plainJwt_decoded h).1]
  exact fun _ => rfl

def sampleGrant (scopes : List String) : Grant :=
  ⟨"user-1", ["temis:user", "temis:user"], Sso.audience, "temis-web", scopes, 7⟩

def sampleIssued (scopes : List String) : AccessToken := ⟨"k", (sampleGrant scopes).claims 1⟩

/-- A call with a token of the grant, up to the true answer of `status_check`. -/
def presented (scopes : List String) : List (Signal ℕ PlainToken Input) :=
  [.call 0 (plainToken (sampleIssued scopes)), .go 0 (at_ 1 .failed none),
    .go 0 (at_ 1 .failed none), .go 0 (at_ 2 (.document plainDocument) none),
    .go 0 (at_ 3 .failed (some true))]

/-- The service after it. -/
def accepting (scopes : List String) : Service PlainToken :=
  (run (verifier labSettings plainJwt).signal
    ((verifier labSettings plainJwt).start (.start PlainToken 0)) (presented scopes)).shared

set_option maxRecDepth 4000 in
/-- The call returns, whatever the scopes are. -/
theorem accepting_returns (scopes : List String) : ∃ e ∈ (accepting scopes).ended,
    e.attempt.token = plainToken (sampleIssued scopes) ∧ ∃ p v, e.outcome = .returned p v := by
  with_unfolding_all exact ⟨_, List.mem_cons_self, rfl, _, _, rfl⟩

/-- `issue_access` for the sample grants. -/
theorem issueAccess_sample (scopes : List String) :
    issueAccess (some "k") ((sampleGrant scopes).claims 1) = some (sampleIssued scopes) := rfl

theorem two_scopes_read_back :
    ∃ e ∈ (accepting ["reports:read", "profile:read", "reports:read"]).ended,
      ∃ p v, e.outcome = .returned p v ∧
        ReadsBack (sampleGrant ["reports:read", "profile:read", "reports:read"]) p := by
  obtain ⟨e, he, htoken, p, v, ho⟩ :=
    accepting_returns ["reports:read", "profile:read", "reports:read"]
  exact ⟨e, he, p, v, ho, (authority_read_back labSettings plainJwt plainToken plainJwt_roundTrips 0
    (presented _) (sampleGrant _) (by decide) (issueAccess_sample _) he htoken ho).mpr (by decide)⟩

/-- A token without scopes is accepted with one. -/
theorem empty_scopes_grow : ∃ e ∈ (accepting []).ended, ∃ p v, e.outcome = .returned p v ∧
    requireScope p "profile:read" = .ok () ∧ ¬ ReadsBack (sampleGrant []) p := by
  obtain ⟨e, he, htoken, p, v, ho⟩ := accepting_returns []
  have hp := principal_of_issued plainJwt_roundTrips (g := sampleGrant []) (by decide)
    (issueAccess_sample []) htoken
    (principal_attested labSettings plainJwt plainJwt_issuer 0 (presented []) e he p v ho)
    (readOff_run labSettings plainJwt 0 (presented []) e he p v ho)
  have hscope : requireScope p "profile:read" = .ok () := by
    rw [requireScope_eq_ok, hp.scopes]
    decide
  refine ⟨e, he, p, v, ho, hscope, ?_⟩
  intro hback
  have hgranted := (hback.required "profile:read").mp hscope
  revert hgranted
  decide

end TemisLab.Resource
