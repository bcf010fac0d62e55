/-
  The three messages of a login between the BFF and the SSO, as they are written and as they are
  read: the redirect of `begin` to `/oauth/authorize`, the redirect of `provider_callback` to
  `/auth/callback`, and the body that `OAuthTokenClient.exchange` posts to `/oauth/token`.

  Texts are written by `urlencode` and read by `parse_qsl`, the body as octets. What a browser
  sends of an address is its path and its query.

  `login_messages_agree`: whatever is drawn, each side reads what the other has written, and what
  it reads passes its checks.
-/
import TemisLab.Bff.Browsers
import TemisLab.Lib.Urlencode
import TemisLab.OAuth.TokenEndpoint

namespace TemisLab.Bff

open TemisLab.Lib TemisLab.Sso TemisLab.OAuth

/-! ## Writing and reading -/

def charFields (fields : List (String × String)) : List (List Char × List Char) :=
  fields.map fun f => (f.1.toList, f.2.toList)

def textFields (fields : List (List Char × List Char)) : List (String × String) :=
  fields.map fun f => (String.ofList f.1, String.ofList f.2)

@[simp] theorem textFields_charFields (fields : List (String × String)) :
    textFields (charFields fields) = fields := by
  unfold textFields charFields
  rw [List.map_map]
  exact List.map_id'' (fun f => by simp) fields

/-- `f"{address}?{urlencode(fields)}"`. -/
def withQuery (address : String) (fields : List (String × String)) : List Char :=
  address.toList ++ '?' :: Percent.urlencode (charFields fields)

/-- The parameters of an address that a request is made to (`request.query_params`). -/
def queryParams (location : List Char) : List (String × String) :=
  textFields (PathQuery.parameters (PathQuery.queryOf location))

/-- A parameter of an endpoint: the last value of its name. -/
def param (params : List (String × String)) (name : String) : Option String :=
  params.reverse.lookup name

/-- The address has neither a query nor a fragment of its own. -/
def Plain (address : String) : Prop := '?' ∉ address.toList ∧ '#' ∉ address.toList

instance (address : String) : Decidable (Plain address) :=
  inferInstanceAs (Decidable ('?' ∉ address.toList ∧ '#' ∉ address.toList))

theorem queryParams_withQuery {address : String} (h : Plain address)
    (fields : List (String × String)) : queryParams (withQuery address fields) = fields := by
  have hhash : '#' ∉ withQuery address fields := by
    unfold withQuery
    rw [List.mem_append, List.mem_cons]
    rintro (hmem | hmem | hmem)
    · exact h.2 hmem
    · cases hmem
    · exact Percent.not_mem_urlencode (by decide) (by decide) (by decide) _ hmem
  have hquery : PathQuery.queryOf (withQuery address fields) =
      Percent.urlencode (charFields fields) := by
    unfold PathQuery.queryOf
    rw [PathQuery.takeWhile_piece hhash, withQuery, PathQuery.dropWhile_cons_piece h.1]
    rfl
  unfold queryParams
  rw [hquery, PathQuery.parameters, Percent.parseQsl_urlencode]
  simp

/-! ## The messages -/

/-- The Location of `login`. -/
def beginLocation (cfg : Config) (env : Env) (state verifier : String) : List Char :=
  withQuery (authorizeUrl cfg env state verifier).1 (authorizeUrl cfg env state verifier).2

/-- The parameters of `authorize`; `none` is the 422 of a missing one. -/
def authorizeQueryOf (params : List (String × String)) : Option AuthorizeQuery := do
  let clientId ← param params "client_id"
  let redirectUri ← param params "redirect_uri"
  let state ← param params "state"
  let codeChallenge ← param params "code_challenge"
  some
    { clientId, redirectUri, state, codeChallenge
      responseType := (param params "response_type").getD "code"
      codeChallengeMethod := (param params "code_challenge_method").getD "S256" }

/-- The Location of `provider_callback`. -/
def codeLocation (t : OAuthTransaction) (code : String) : List Char :=
  withQuery t.redirectUri [("code", code), ("state", t.clientState)]

/-- The parameters of the BFF's `callback`: the code and the state. -/
def callbackParams (params : List (String × String)) : Option (String × String) := do
  let code ← param params "code"
  let state ← param params "state"
  some (code, state)

/-- The fields that `OAuthTokenClient.exchange` posts. -/
def tokenFields (cfg : Config) (code verifier : String) : List (String × String) :=
  [("grant_type", "authorization_code"), ("client_id", cfg.clientId),
    ("redirect_uri", cfg.redirectUri), ("code", code), ("code_verifier", verifier)]

/-- The body that is posted: the fields as a form, in UTF-8. -/
def tokenBody (cfg : Config) (code verifier : String) : List UInt8 :=
  (Utf8.encode (Percent.urlencode (charFields (tokenFields cfg code verifier)))).map UInt8.ofNat

/-- `secrets.token_urlsafe` of its random octets. -/
def tokenUrlsafe (octets : List ℕ) : String := String.ofList (Base64.encode octets)

theorem length_tokenUrlsafe (octets : List ℕ) :
    (tokenUrlsafe octets).length = (4 * octets.length + 2) / 3 := by
  rw [tokenUrlsafe, String.length_ofList, Base64.length_encode]

/-! ## What is read -/

/-- `authorize` reads what `begin` wrote. -/
theorem authorizeQueryOf_begin {cfg : Config} (h : Plain cfg.authorizeEndpoint) (env : Env)
    (state verifier : String) :
    authorizeQueryOf (queryParams (beginLocation cfg env state verifier)) =
      some
        { clientId := cfg.clientId, redirectUri := cfg.redirectUri, state
          codeChallenge := pkceChallenge env verifier } := by
  unfold beginLocation
  rw [authorizeUrl, queryParams_withQuery h]
  rfl

/-- The BFF reads the code and its own state. -/
theorem callbackParams_code {t : OAuthTransaction} (h : Plain t.redirectUri) (code : String) :
    callbackParams (queryParams (codeLocation t code)) = some (code, t.clientState) := by
  unfold codeLocation
  rw [queryParams_withQuery h]
  rfl

/-- `token` reads the fields that are not blank. -/
theorem formOf_tokenBody (cfg : Config) (code verifier : String) :
    formOf (tokenBody cfg code verifier) =
      some ((tokenFields cfg code verifier).filter fun f => f.2 ≠ "") := by
  have hoctets : (tokenBody cfg code verifier).map UInt8.toNat =
      Utf8.encode (Percent.urlencode (charFields (tokenFields cfg code verifier))) := by
    unfold tokenBody
    rw [List.map_map]
    refine (List.map_congr_left fun b hb => ?_).trans (List.map_id' _)
    obtain ⟨c, -, hb⟩ := List.mem_flatMap.mp hb
    exact Nat.mod_eq_of_lt (Utf8.encodeChar_lt hb)
  unfold formOf
  rw [hoctets, Utf8.decodeStrict_encode, Option.bind_some, Percent.parseQsl_urlencode]
  have hblank : ∀ fields : List (String × String),
      ((charFields fields).filter fun f => false || f.2 ≠ []) =
        charFields (fields.filter fun f => f.2 ≠ "") := by
    intro fields
    unfold charFields
    rw [List.filter_map]
    congr 1
    refine List.filter_congr fun f _ => ?_
    simp
  rw [hblank, Option.map_some]
  exact congrArg some (textFields_charFields _)

/-- What the lab's digests are: two hexadecimal digits for each of 32 octets. -/
def Digests (env : Env) : Prop := ∀ text, (env.sha256 text).length = 64

theorem length_unhex (cs : List Char) : (unhex cs).length = cs.length / 2 := by
  induction cs using unhex.induct with
  | case1 a b rest ih =>
      simp only [unhex, List.length_cons, ih]
      omega
  | case2 cs h =>
      match cs with
      | [] => rfl
      | [a] => simp [unhex]
      | a :: b :: rest => exact (h a b rest rfl).elim

/-- A challenge is 43 characters long. -/
theorem length_pkceChallenge {env : Env} (henv : Digests env) (verifier : String) :
    (pkceChallenge env verifier).length = 43 := by
  unfold pkceChallenge
  rw [String.length_ofList, Base64.length_encode, length_unhex, String.length_toList, henv]

/-- The addresses of a registered client have no query of their own, and nothing is blank. -/
theorem registered_plain {clientId redirectUri : String} {policy : ClientPolicy}
    (h : requireClient clientId redirectUri = .ok policy) :
    Plain redirectUri ∧ clientId ≠ "" ∧ redirectUri ≠ "" := by
  obtain ⟨hlookup, hpermits⟩ := requireClient_eq_ok h
  have hid := clientId_of_lookup hlookup
  obtain ⟨before, after, hclients, -⟩ := List.lookup_eq_some_iff.mp hlookup
  have hall : ∀ c ∈ clients, c.1 ≠ "" ∧ ∀ uri ∈ c.2.redirectUris, Plain uri ∧ uri ≠ "" := by
    decide
  obtain ⟨hne, huris⟩ := hall (clientId, policy) (by rw [hclients]; simp)
  have hmem : redirectUri ∈ policy.redirectUris := by
    simpa [ClientPolicy.permitsRedirect] using hpermits
  exact ⟨(huris redirectUri hmem).1, hne, (huris redirectUri hmem).2⟩

/-- The request of a body whose fields are all there. -/
theorem requestOf_tokenBody {cfg : Config} {code verifier : String} (hclient : cfg.clientId ≠ "")
    (hredirect : cfg.redirectUri ≠ "") (hcode : code ≠ "")
    (hlength : 43 ≤ verifier.length ∧ verifier.length ≤ 128) :
    requestOf (tokenBody cfg code verifier) =
      some ⟨"authorization_code", cfg.clientId, cfg.redirectUri, code, verifier⟩ := by
  have hverifier : verifier ≠ "" := by
    rintro rfl
    exact absurd hlength.1 (by decide)
  have hall : (tokenFields cfg code verifier).filter (fun f => f.2 ≠ "") =
      tokenFields cfg code verifier := by
    simp [tokenFields, hclient, hredirect, hcode, hverifier]
  have hform : TokenRequest.ofForm (tokenFields cfg code verifier) =
      if 43 ≤ verifier.length ∧ verifier.length ≤ 128 then
        some ⟨"authorization_code", cfg.clientId, cfg.redirectUri, code, verifier⟩
      else none := rfl
  unfold requestOf
  rw [formOf_tokenBody, hall, Option.bind_some, hform, if_pos hlength]

/-- A grant of a transaction is valid for the verifier its challenge was made of. -/
theorem valid_codeGrant_self {env : Env} {cfg : Config} {policy : ClientPolicy}
    {userId code verifier state : String} (hid : policy.clientId = cfg.clientId) :
    TokenRequest.valid env ⟨"authorization_code", cfg.clientId, cfg.redirectUri, code, verifier⟩
      (codeGrant userId policy
        ⟨cfg.clientId, cfg.redirectUri, pkceChallenge env verifier, "lab-provider", state⟩) =
          true := by
  simp only [TokenRequest.valid, Bool.and_eq_true, decide_eq_true_eq]
  exact ⟨⟨⟨trivial, congrArg some hid⟩, rfl⟩, rfl⟩

/-- For a registered client: whatever octets `token_urlsafe` draws for the state, the verifier and
    the authorization code, `authorize` reads the login's own query and takes it, the BFF's callback
    reads the code and its state, and `token` reads a request that is valid for the grant of the
    code. -/
theorem login_messages_agree (cfg : Config) (env : Env) (policy : ClientPolicy)
    (henv : Digests env) (hendpoint : Plain cfg.authorizeEndpoint)
    (hclient : requireClient cfg.clientId cfg.redirectUri = .ok policy)
    (stateOctets verifierOctets codeOctets : List ℕ) (hstate : stateOctets.length = 32)
    (hverifier : verifierOctets.length = 48) (hcode : codeOctets.length = 32) :
    let state := tokenUrlsafe stateOctets
    let verifier := tokenUrlsafe verifierOctets
    let code := tokenUrlsafe codeOctets
    let t : OAuthTransaction :=
      ⟨cfg.clientId, cfg.redirectUri, pkceChallenge env verifier, "lab-provider", state⟩
    (∃ q, authorizeQueryOf (queryParams (beginLocation cfg env state verifier)) = some q ∧
        q.check = .ok t) ∧
      callbackParams (queryParams (codeLocation t code)) = some (code, state) ∧
      ∃ r, requestOf (tokenBody cfg code verifier) = some r ∧ r.code = code ∧
        clientById r.clientId = .ok policy ∧
        ∀ userId, r.valid env (codeGrant userId policy t) = true := by
  intro state verifier code t
  have hlength : state.length = 43 ∧ verifier.length = 64 ∧ code.length = 43 := by
    refine ⟨?_, ?_, ?_⟩
    · rw [length_tokenUrlsafe, hstate]
    · rw [length_tokenUrlsafe, hverifier]
    · rw [length_tokenUrlsafe, hcode]
  obtain ⟨hs, hv, hc⟩ := hlength
  obtain ⟨hplain, hid, hredirect⟩ := registered_plain hclient
  obtain ⟨hlookup, -⟩ := requireClient_eq_ok hclient
  have hne : code ≠ "" := by
    intro h
    rw [h] at hc
    exact absurd hc (by decide)
  refine ⟨⟨_, authorizeQueryOf_begin hendpoint env state verifier, ?_⟩,
    callbackParams_code hplain code, _,
    requestOf_tokenBody hid hredirect hne ⟨by omega, by omega⟩, rfl, ?_, ?_⟩
  · unfold AuthorizeQuery.check
    have hch := length_pkceChallenge henv verifier
    rw [if_neg (by simp only [hs, hch]; omega), if_neg (by simp), hclient]
  · unfold clientById
    rw [hlookup]
  · exact fun userId => valid_codeGrant_self (clientId_of_lookup hlookup)

/-- An environment with a digest of 64 digits. -/
def digestEnv : Env where
  sha256 text := String.ofList (((text.toList.flatMap fun c =>
    [Percent.hexChar (c.toNat / 16 % 16), Percent.hexChar (c.toNat % 16)]) ++
      List.replicate 64 '0').take 64)
  lower := id
  verifyPassword := fun hash password => hash = password

theorem digestEnv_digests : Digests digestEnv := by
  intro text
  simp [digestEnv]

/-- The lab's client, with the octets from 0, from 100 and from 200 on. -/
theorem lab_messages_agree :
    (∃ q, authorizeQueryOf (queryParams (beginLocation labConfig digestEnv
        (tokenUrlsafe (List.range 32)) (tokenUrlsafe (List.range' 100 48)))) = some q ∧
      ∃ t, q.check = .ok t ∧
        callbackParams (queryParams (codeLocation t (tokenUrlsafe (List.range' 200 32)))) =
          some (tokenUrlsafe (List.range' 200 32), tokenUrlsafe (List.range 32))) := by
  obtain ⟨⟨q, hq, hcheck⟩, hback, -⟩ := login_messages_agree labConfig digestEnv
    { clientId := "temis-web", audience := "temis-lab"
      redirectUris := ["http://localhost:3000/auth/callback"], defaultRole := "user" }
    digestEnv_digests (by decide) rfl (List.range 32) (List.range' 100 48) (List.range' 200 32)
    rfl rfl rfl
  exact ⟨q, hq, _, hcheck, hback⟩

end TemisLab.Bff
