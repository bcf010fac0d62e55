/-
  Refresh grants and access tokens (`tokens.py`, `api/auth.py`). `rotate_refresh`,
  `revoke_refresh`, `issue_bundle` and `authorization_status` are one transaction each. A
  signed access token is its header's kid with its claims; the signing key is an argument
  (`none` is a ring without an active key).
-/
import TemisLab.Sso.Db
import Mathlib.Algebra.Order.Floor.Ring
import Mathlib.Data.Rat.Floor

namespace TemisLab.Sso

open TemisLab.Lib

/-- `ISSUER`. -/
def issuer : String := "https://auth.lab.invalid"

/-- `AUDIENCE`. -/
def audience : String := "temis-lab"

/-- `token_digest`. -/
def tokenDigest (env : Env) (token : String) : String := env.sha256 token

/-- The claims `issue_access` signs; `exp` and `iat` are whole seconds in the token. -/
structure AccessClaims where
  iss : String
  aud : String
  sub : String
  azp : String
  scope : String
  roles : List String
  authzVersion : ℤ
  authTime : ℤ
  iat : ℤ
  exp : ℤ
  deriving DecidableEq, Repr

/-- A token signed by the ring: the kid of its header, and its claims. -/
structure AccessToken where
  kid : String
  claims : AccessClaims
  deriving DecidableEq, Repr

/-- `RingTokenCodec.issue_access` without the signature. -/
def accessClaims (userId : String) (roles : List String) (aud clientId : String)
    (scopes : List String) (authzVersion : ℤ) (now : Time) : AccessClaims where
  iss := issuer
  aud := aud
  sub := userId
  azp := clientId
  scope := PyText.join " " (if scopes.isEmpty then ["profile:read"] else scopes)
  roles := roles
  authzVersion := authzVersion
  authTime := ⌊now⌋
  iat := ⌊now⌋
  exp := ⌊now + 10 * 60⌋

/-- `RingTokenCodec.issue_access`: signed under the active key, if there is one. -/
def issueAccess (activeKid : Option String) (claims : AccessClaims) : Option AccessToken :=
  activeKid.map fun kid => ⟨kid, claims⟩

/-- `RingTokenCodec.verify_access` on a token the ring signed: `keys` holds for the kids
    `verification_key` returns a key for, and the checks are those of `jwt.decode`. -/
def verifyAccess (keys : String → Bool) (aud : String) (now : Time) (token : AccessToken) :
    Option AccessClaims :=
  if keys token.kid && token.claims.iat ≤ now && now < token.claims.exp &&
      token.claims.iss = issuer && token.claims.aud = aud then
    some token.claims
  else none

/-! ## Refresh grants -/

/-- `issue_refresh`; `none` is the `IntegrityError` of a taken digest. -/
def issueRefresh (env : Env) (db : Db) (userId aud raw : String) (now : Time) : Option Db :=
  (db.refreshGrants.insert
      { digest := tokenDigest env raw, userId, audience := aud,
        expiresAt := now + 14 * 24 * 60 * 60 }).map
    fun refreshGrants => { db with refreshGrants }

def RefreshGrant.isLive (g : RefreshGrant) : Bool := g.consumedAt.isNone

def RefreshGrant.consume (now : Time) (g : RefreshGrant) : RefreshGrant :=
  { g with consumedAt := some now }

@[simp] theorem RefreshGrant.consume_digest (now : Time) (g : RefreshGrant) :
    (g.consume now).digest = g.digest := rfl

@[simp] theorem RefreshGrant.consume_userId (now : Time) (g : RefreshGrant) :
    (g.consume now).userId = g.userId := rfl

/-- `update(RefreshGrant).where(p).values(consumed_at=now)`. -/
def Db.consumeGrants (db : Db) (p : RefreshGrant → Bool) (now : Time) : Db :=
  { db with
    refreshGrants :=
      db.refreshGrants.modify p (RefreshGrant.consume now) (RefreshGrant.consume_digest now) }

theorem Db.grant_consumeGrants (db : Db) (p : RefreshGrant → Bool) (now : Time) (d : String) :
    (db.consumeGrants p now).refreshGrants.get d =
      (db.refreshGrants.get d).map fun g => if p g then g.consume now else g :=
  Table.get_modify db.refreshGrants p (RefreshGrant.consume now) (RefreshGrant.consume_digest now) d

/-- The `WHERE` of `rotate_refresh`. -/
def rotatable (env : Env) (db : Db) (raw : String) (now : Time) (g : RefreshGrant) : Bool :=
  g.digest = tokenDigest env raw && g.isLive && now < g.expiresAt && db.isActive g.userId

inductive TokenError where
  | integrity | activeUserRequired | noActiveSigningKey
  deriving DecidableEq, Repr

/-- `rotate_refresh`: consume the presented grant and issue its successor. A result `none`
    commits and changes nothing; the error rolls the block back. -/
def rotateRefresh (env : Env) (db : Db) (raw new : String) (now : Time) :
    Except TokenError (Option (String × String × String) × Db) :=
  match db.refreshGrants.get (tokenDigest env raw) with
  | none => .ok (none, db)
  | some g =>
      if rotatable env db raw now g then
        let db₁ := db.consumeGrants (rotatable env db raw now) now
        match issueRefresh env db₁ g.userId g.audience new now with
        | none => .error .integrity
        | some db₂ => .ok (some (g.userId, g.audience, new), db₂)
      else .ok (none, db)

/-- `revoke_refresh`: the boolean is `rowcount`. -/
def revokeRefresh (env : Env) (db : Db) (raw : String) (now : Time) : Bool × Db :=
  let mine := fun g : RefreshGrant => g.digest = tokenDigest env raw && g.isLive
  (db.refreshGrants.rows.any mine, db.consumeGrants mine now)

/-! ## Bundles -/

/-- `TokenBundle`, with the access token unencoded. -/
structure TokenBundle where
  userId : String
  accessToken : AccessToken
  refreshToken : String
  deriving DecidableEq, Repr

/-- The scopes `issue_bundle` grants for a list of roles. -/
def bundleScopes (roles : List String) : List String :=
  ["profile:read", "reports:read"] ++ if "admin" ∈ roles then ["admin:write"] else []

/-- The claims `issue_bundle` signs for the version and the roles it read. -/
def bundleClaims (userId : String) (authzVersion : ℤ) (roles : List String) (aud : String)
    (now : Time) : AccessClaims :=
  accessClaims userId (roles.map ("temis:" ++ ·)) aud "temis-web" (bundleScopes roles)
    authzVersion now

/-- `refresh_token or await issue_refresh(…)`: a given non-empty token is kept. -/
def bundleRefresh (env : Env) (db : Db) (userId aud : String) (refreshToken : Option String)
    (fresh : String) (now : Time) : Option (String × Db) :=
  match refreshToken with
  | some raw => if raw = "" then (issueRefresh env db userId aud fresh now).map (fresh, ·)
                else some (raw, db)
  | none => (issueRefresh env db userId aud fresh now).map (fresh, ·)

/-- `issue_bundle`. -/
def issueBundle (env : Env) (db : Db) (userId aud : String) (refreshToken : Option String)
    (fresh : String) (activeKid : Option String) (now : Time) :
    Except TokenError (TokenBundle × Db) :=
  match db.user userId with
  | none => .error .activeUserRequired
  | some user =>
      if user.status ≠ .active then .error .activeUserRequired
      else
        match bundleRefresh env db userId aud refreshToken fresh now with
        | none => .error .integrity
        | some (refresh, db') =>
            match issueAccess activeKid
                (bundleClaims userId user.authzVersion (db.roles userId) aud now) with
            | none => .error .noActiveSigningKey
            | some access => .ok (⟨userId, access, refresh⟩, db')

/-- `StatusResult`. -/
structure StatusResult where
  active : Bool
  authzVersion : Option ℤ
  deriving DecidableEq, Repr

/-- `authorization_status`, once the service key has been accepted. -/
def authorizationStatus (db : Db) (userId : String) (authzVersion : ℤ) : StatusResult :=
  match db.user userId with
  | none => ⟨false, none⟩
  | some user =>
      ⟨user.status = .active && user.authzVersion = authzVersion, some user.authzVersion⟩

/-! ## What each block commits -/

theorem verifyAccess_eq_some {keys : String → Bool} {aud : String} {now : Time}
    {token : AccessToken} {claims : AccessClaims}
    (h : verifyAccess keys aud now token = some claims) : claims = token.claims := by
  unfold verifyAccess at h
  split at h
  · exact (Option.some.inj h).symm
  · cases h

theorem issueRefresh_eq_some {env : Env} {db db' : Db} {userId aud raw : String} {now : Time}
    (h : issueRefresh env db userId aud raw now = some db') :
    ∃ grants g, db.refreshGrants.insert g = some grants ∧ g.digest = tokenDigest env raw ∧
      g.userId = userId ∧ g.audience = aud ∧ g.consumedAt = none ∧
      db' = { db with refreshGrants := grants } := by
  obtain ⟨grants, hi, rfl⟩ := Option.map_eq_some_iff.mp h
  exact ⟨grants, _, hi, rfl, rfl, rfl, rfl, rfl⟩

/-- Everything a successful rotation did. -/
theorem rotateRefresh_eq_some {env : Env} {db db' : Db} {raw new u aud r : String} {now : Time}
    (h : rotateRefresh env db raw new now = .ok (some (u, aud, r), db')) :
    ∃ g grants g', db.refreshGrants.get (tokenDigest env raw) = some g ∧
      rotatable env db raw now g = true ∧ g.userId = u ∧ g.audience = aud ∧ r = new ∧
      (db.consumeGrants (rotatable env db raw now) now).refreshGrants.insert g' = some grants ∧
      g'.digest = tokenDigest env new ∧ g'.userId = u ∧ g'.audience = aud ∧
      g'.consumedAt = none ∧ db' = { db with refreshGrants := grants } := by
  unfold rotateRefresh at h
  split at h
  · cases h
  · next g hg =>
      split at h
      · next hr =>
          simp only at h
          split at h
          · cases h
          · next db₂ hi =>
              cases h
              obtain ⟨grants, g', hins, h1, h2, h3, h4, rfl⟩ := issueRefresh_eq_some hi
              exact ⟨g, grants, g', hg, hr, rfl, rfl, rfl, hins, h1, h2, h3, h4, rfl⟩
      · cases h

/-- A rotation that returns `None` changed nothing. -/
theorem rotateRefresh_eq_none {env : Env} {db db' : Db} {raw new : String} {now : Time}
    (h : rotateRefresh env db raw new now = .ok (none, db')) : db' = db := by
  unfold rotateRefresh at h
  split at h
  · cases h; rfl
  · split at h
    · simp only at h
      split at h <;> cases h
    · cases h; rfl

theorem rotatable_iff {env : Env} {db : Db} {raw : String} {now : Time} {g : RefreshGrant} :
    rotatable env db raw now g = true ↔
      g.digest = tokenDigest env raw ∧ g.consumedAt = none ∧ now < g.expiresAt ∧
        db.isActive g.userId = true := by
  simp [rotatable, RefreshGrant.isLive, and_assoc]

/-- The grants a bundle leaves: those there were, and at most the one it issued. -/
theorem bundleRefresh_eq_some {env : Env} {db db' : Db} {userId aud fresh r : String}
    {refreshToken : Option String} {now : Time}
    (h : bundleRefresh env db userId aud refreshToken fresh now = some (r, db')) :
    (refreshToken = some r ∧ db' = db) ∨
      (r = fresh ∧ issueRefresh env db userId aud fresh now = some db') := by
  unfold bundleRefresh at h
  split at h
  · split at h
    · obtain ⟨db₁, hi, he⟩ := Option.map_eq_some_iff.mp h
      cases he
      exact Or.inr ⟨rfl, hi⟩
    · cases h
      exact Or.inl ⟨rfl, rfl⟩
  · obtain ⟨db₁, hi, he⟩ := Option.map_eq_some_iff.mp h
    cases he
    exact Or.inr ⟨rfl, hi⟩

/-- Everything a bundle says: its user was active, and its claims are those of the user row
    and the roles it read. -/
theorem issueBundle_eq_ok {env : Env} {db db' : Db} {userId aud fresh : String}
    {refreshToken activeKid : Option String} {now : Time} {b : TokenBundle}
    (h : issueBundle env db userId aud refreshToken fresh activeKid now = .ok (b, db')) :
    ∃ user kid, db.user userId = some user ∧ user.status = .active ∧ activeKid = some kid ∧
      b.userId = userId ∧
      b.accessToken =
        ⟨kid, bundleClaims userId user.authzVersion (db.roles userId) aud now⟩ ∧
      bundleRefresh env db userId aud refreshToken fresh now = some (b.refreshToken, db') := by
  unfold issueBundle at h
  split at h
  · cases h
  · next user hu =>
      split at h
      · cases h
      · next hs =>
          split at h
          · cases h
          · next refresh db₁ hr =>
              split at h
              · cases h
              · next access ha =>
                  cases h
                  obtain ⟨kid, hk, rfl⟩ := Option.map_eq_some_iff.mp ha
                  exact ⟨user, kid, hu, not_not.mp hs, hk, rfl, rfl, hr⟩

/-- A refresh token that is issued is new. -/
theorem bundleRefresh_isSome {env : Env} {db : Db} {userId aud fresh : String}
    {refreshToken : Option String} {now : Time} :
    (bundleRefresh env db userId aud refreshToken fresh now).isSome = true ↔
      (refreshToken.getD "" = "" → db.refreshGrants.get (tokenDigest env fresh) = none) := by
  have hissue : (issueRefresh env db userId aud fresh now).isSome = true ↔
      db.refreshGrants.get (tokenDigest env fresh) = none := by
    unfold issueRefresh
    rw [Option.isSome_map, Option.isSome_iff_ne_none, ne_eq, Table.insert_eq_none,
      ← Option.isSome_iff_exists, Option.isSome_iff_ne_none, not_not]
    rfl
  unfold bundleRefresh
  cases refreshToken with
  | none => simp [hissue]
  | some raw => by_cases h : raw = "" <;> simp [h, hissue]

/-- A bundle needs an active user, an active key and, where none was given, a new refresh token. -/
theorem issueBundle_iff {env : Env} {db : Db} {userId aud fresh : String}
    {refreshToken activeKid : Option String} {now : Time} :
    (∃ b db', issueBundle env db userId aud refreshToken fresh activeKid now = .ok (b, db')) ↔
      db.isActive userId = true ∧ activeKid ≠ none ∧
        (refreshToken.getD "" = "" → db.refreshGrants.get (tokenDigest env fresh) = none) := by
  constructor
  · rintro ⟨b, db', h⟩
    obtain ⟨user, kid, huser, hactive, hkid, -, -, hrefresh⟩ := issueBundle_eq_ok h
    refine ⟨Db.isActive_iff.mpr ⟨user, huser, hactive⟩, ?_, ?_⟩
    · rw [hkid]
      exact Option.some_ne_none kid
    · exact bundleRefresh_isSome.mp (Option.isSome_iff_exists.mpr ⟨_, hrefresh⟩)
  · rintro ⟨hactive, hkid, hnew⟩
    obtain ⟨user, huser, hstatus⟩ := Db.isActive_iff.mp hactive
    obtain ⟨kid, rfl⟩ := Option.ne_none_iff_exists'.mp hkid
    have hsome : (bundleRefresh env db userId aud refreshToken fresh now).isSome = true :=
      bundleRefresh_isSome.mpr hnew
    obtain ⟨⟨refresh, db'⟩, hrefresh⟩ := Option.isSome_iff_exists.mp hsome
    refine ⟨⟨userId, ⟨kid, bundleClaims userId user.authzVersion (db.roles userId) aud now⟩,
      refresh⟩, db', ?_⟩
    unfold issueBundle issueAccess
    rw [huser]
    simp [hstatus, hrefresh]

theorem authorizationStatus_active {db : Db} {userId : String} {v : ℤ} :
    (authorizationStatus db userId v).active = true ↔
      ∃ user, db.user userId = some user ∧ user.status = .active ∧ user.authzVersion = v := by
  unfold authorizationStatus
  cases db.user userId with
  | none => simp
  | some user => simp

/-- The scope text of a bundle lists `admin:write` exactly when the roles hold `admin`. -/
theorem mem_bundle_scope (userId : String) (v : ℤ) (roles : List String) (aud : String)
    (now : Time) :
    "admin:write" ∈ PyText.split (bundleClaims userId v roles aud now).scope ↔
      "admin" ∈ roles := by
  by_cases h : "admin" ∈ roles
  · have hs : PyText.split (bundleClaims userId v roles aud now).scope =
        ["profile:read", "reports:read", "admin:write"] := by
      simp only [bundleClaims, accessClaims, bundleScopes, if_pos h]
      decide
    rw [hs]
    simp [h]
  · have hs : PyText.split (bundleClaims userId v roles aud now).scope =
        ["profile:read", "reports:read"] := by
      simp only [bundleClaims, accessClaims, bundleScopes, if_neg h]
      decide
    rw [hs]
    simp [h]

end TemisLab.Sso
