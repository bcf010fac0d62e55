/-
  What is really in Redis: the stores of the SSO (`temis_sso/oauth_state.py`) and of the BFF
  (`temis_bff/oauth.py`, `sessions.py`) as JSON texts of one server under digested keys, and both
  services over it.

  The machines of `TemisLab.OAuth.CodeFlow` and `TemisLab.Bff.Sessions` run over stores of typed
  values. A step makes at most one call to a store (`Site.call`) and goes on with its answer; in
  `Deployed` the answer is read out of a text.

  * `call_shows`: a call is answered out of the texts as it is by the stores, and the texts go on
    to show them.
  * `narrow_step`: a step needs of its store just the answer to its call.
  * `deployed_agrees`: over texts, everything is as over the typed stores, whatever interleaves,
    whatever the texts hold and whatever SHA-256 does.
-/
import TemisLab.Lib.TextStore
import TemisLab.Bff.Sessions

namespace TemisLab.Bff

open TemisLab.Lib TemisLab.Sso

/-! ## The dataclasses -/

def oauthTransaction : Dataclass OAuth.OAuthTransaction where
  fields := ["client_id", "redirect_uri", "code_challenge", "provider", "client_state"]
  values t := [t.clientId, t.redirectUri, t.codeChallenge, t.provider, t.clientState]
  ofValues
    | [clientId, redirectUri, codeChallenge, provider, clientState] =>
        some { clientId, redirectUri, codeChallenge, provider, clientState }
    | _ => none
  nodup := by decide
  length_values _ := rfl
  ofValues_values _ := rfl

def loginTransaction : Dataclass LoginTransaction where
  fields := ["verifier", "return_to"]
  values t := [t.verifier, t.returnTo]
  ofValues
    | [verifier, returnTo] => some { verifier, returnTo }
    | _ => none
  nodup := by decide
  length_values _ := rfl
  ofValues_values _ := rfl

def bffSession : Dataclass BffSession where
  fields := ["user_id", "access_token", "refresh_token", "csrf_token"]
  values s := [s.userId, s.accessToken, s.refreshToken, s.csrfToken]
  ofValues
    | [userId, accessToken, refreshToken, csrfToken] =>
        some { userId, accessToken, refreshToken, csrfToken }
    | _ => none
  nodup := by decide
  length_values _ := rfl
  ofValues_values _ := rfl

/-! ## The calls -/

/-- The methods that use Redis, with their arguments, the raw token drawn, the request and the
    clock. -/
inductive Call where
  /-- `RedisOneTimeStore.put`, `begin`. -/
  | put (ns : OAuth.Namespace) (value : OAuth.Value) (ttl : Time) (raw : String) (now : Time)
  /-- `RedisOneTimeStore.take`. -/
  | take (ns : OAuth.Namespace) (raw : String) (rid : ℕ) (now : Time)
  | consumeOauth (state : String) (rid : ℕ) (now : Time)
  /-- `BffOAuthFlow.begin`. -/
  | begin (state : String) (transaction : LoginTransaction) (now : Time)
  /-- `BffOAuthFlow.complete` as far as the exchange. -/
  | complete (state : String) (rid : ℕ) (now : Time)
  /-- `RedisSessionStore.create`, `get` and `delete`. -/
  | create (sessionId : String) (session : BffSession) (ttl : Time) (now : Time)
  | get (sessionId : String) (now : Time)
  | delete (sessionId : String)
  deriving DecidableEq, Repr

inductive Reply where
  | done
  | value (value : Option OAuth.Value)
  | oauth (transaction : Option OAuth.OAuthTransaction)
  | login (transaction : Option LoginTransaction)
  | session (session : Option BffSession)
  | raised (error : ReadError)
  deriving DecidableEq, Repr

/-- `None`, or what is read of the text. -/
def decodeReply {α : Type} (read : String → Except ReadError α) (reply : Option α → Reply) :
    Option String → Reply
  | none => reply none
  | some text =>
      match read text with
      | .error e => .raised e
      | .ok a => reply (some a)

/-- `json.loads(value)`, which `take` passes on as a dictionary of texts. -/
def readValue (text : String) : Except ReadError OAuth.Value :=
  match loadsText text with
  | .error e => .error (.decode e)
  | .ok v =>
      match textsOf v with
      | none => .error .notText
      | some value => .ok value

/-- A call to the server. -/
def callTexts (env : Env) (r : Texts String Time) : Call → Reply × Texts String Time
  | .put ns value ttl raw now =>
      (.done, r.set (OAuth.key env ns raw) (dumpsTexts value) (now + ttl))
  | .take ns raw _ now =>
      let (text, r) := r.getdel (OAuth.key env ns raw) now
      (decodeReply readValue .value text, r)
  | .consumeOauth state _ now =>
      let (text, r) := r.getdel (OAuth.key env .oauth state) now
      (decodeReply oauthTransaction.read .oauth text, r)
  | .begin state transaction now =>
      (.done, r.set (oauthKey env state) (loginTransaction.keep transaction) (now + 300))
  | .complete state _ now =>
      let (text, r) := r.getdel (oauthKey env state) now
      (decodeReply loginTransaction.read .login text, r)
  | .create sessionId session ttl now =>
      (.done, r.set (sessionKey env sessionId) (bffSession.keep session) (now + ttl))
  | .get sessionId now =>
      (decodeReply bffSession.read .session (r.get (sessionKey env sessionId) now), r)
  | .delete sessionId => (.done, r.delete (sessionKey env sessionId))

/-- The stores of typed values. -/
structure Stores where
  values : OneTime String OAuth.Value Time ℕ
  logins : OneTime String LoginTransaction Time ℕ
  sessions : String → Option (BffSession × Time)

def Stores.empty : Stores := ⟨.empty, .empty, fun _ => none⟩

/-- `consume_oauth` on what `take` gave. -/
def consumedOauth : Option OAuth.Value → Reply
  | none => .oauth none
  | some value =>
      match OAuth.OAuthTransaction.ofDict value with
      | none => .raised .typeError
      | some t => .oauth (some t)

/-- A call to the stores. -/
def callStores (env : Env) (s : Stores) : Call → Reply × Stores
  | .put ns value ttl raw now =>
      (.done, { s with values := s.values.put (OAuth.key env ns raw) value (now + ttl) })
  | .take ns raw rid now =>
      let (value, values) := s.values.take (OAuth.key env ns raw) rid now
      (.value value, { s with values })
  | .consumeOauth state rid now =>
      let (value, values) := s.values.take (OAuth.key env .oauth state) rid now
      (consumedOauth value, { s with values })
  | .begin state transaction now =>
      (.done, { s with logins := s.logins.put (oauthKey env state) transaction (now + 300) })
  | .complete state rid now =>
      let (transaction, logins) := s.logins.take (oauthKey env state) rid now
      (.login transaction, { s with logins })
  | .create sessionId session ttl now =>
      (.done,
        { s with
          sessions := Function.update s.sessions (sessionKey env sessionId)
            (some (session, now + ttl)) })
  | .get sessionId now =>
      (.session ((s.sessions (sessionKey env sessionId)).bind fun (session, deadline) =>
        if now < deadline then some session else none), s)
  | .delete sessionId =>
      (.done,
        { s with sessions := Function.update s.sessions (sessionKey env sessionId) none })

/-! ## The texts show the stores -/

/-- Texts with beginnings that differ. -/
theorem beginning_ne {n : ℕ} {a b c d : String} (h : a.toList.take n ≠ b.toList.take n)
    (ha : n ≤ a.toList.length) (hb : n ≤ b.toList.length) : a ++ c ≠ b ++ d := by
  intro he
  have htake := congrArg (fun s => s.toList.take n) he
  simp only [String.toList_append] at htake
  rw [List.take_append_of_le_length ha, List.take_append_of_le_length hb] at htake
  exact h htake

/-- The keys of the three stores differ in their beginnings. -/
theorem key_ne_oauthKey {env : Env} (ns : OAuth.Namespace) (raw state : String) :
    OAuth.key env ns raw ≠ oauthKey env state := by
  unfold OAuth.key oauthKey
  rw [String.append_assoc, String.append_assoc]
  exact beginning_ne (by decide : _ ≠ List.take 7 _) (by decide) (by decide)

theorem key_ne_sessionKey {env : Env} (ns : OAuth.Namespace) (raw sessionId : String) :
    OAuth.key env ns raw ≠ sessionKey env sessionId := by
  unfold OAuth.key sessionKey
  rw [String.append_assoc, String.append_assoc]
  exact beginning_ne (by decide : _ ≠ List.take 7 _) (by decide) (by decide)

theorem oauthKey_ne_sessionKey {env : Env} (state sessionId : String) :
    oauthKey env state ≠ sessionKey env sessionId :=
  beginning_ne (by decide : _ ≠ List.take 11 _) (by decide) (by decide)

def ValueKey (env : Env) (k : String) : Prop := ∃ ns raw, k = OAuth.key env ns raw

def LoginKey (env : Env) (k : String) : Prop := ∃ state, k = oauthKey env state

def SessionKey (env : Env) (k : String) : Prop := ∃ sessionId, k = sessionKey env sessionId

/-- The server has the texts of the three stores. A value has each key once, and under a state it
    is a transaction of an authorization request. -/
structure Stores.Shown (env : Env) (s : Stores) (r : Texts String Time) : Prop where
  values : r.Shows (ValueKey env) dumpsTexts s.values.live
  logins : r.Shows (LoginKey env) loginTransaction.keep s.logins.live
  sessions : r.Shows (SessionKey env) bffSession.keep s.sessions
  nodup : ∀ k v d, s.values.live k = some (v, d) → (v.map Prod.fst).Nodup
  oauth : ∀ state v d, s.values.live (OAuth.key env .oauth state) = some (v, d) →
    ∃ t : OAuth.OAuthTransaction, v = t.asdict

/-- What the services put: dictionaries with each key once, and transactions under states. -/
def Call.Typed : Call → Prop
  | .put ns value _ _ _ =>
      (value.map Prod.fst).Nodup ∧
        (ns = .oauth → ∃ t : OAuth.OAuthTransaction, value = t.asdict)
  | _ => True

section Shown

variable {env : Env} {s : Stores} {r : Texts String Time}

theorem shown_empty : Stores.empty.Shown env .empty where
  values := Texts.shows_empty
  logins := Texts.shows_empty
  sessions := Texts.shows_empty
  nodup _ _ _ h := by cases h
  oauth _ _ _ h := by cases h

theorem Stores.Shown.put (h : s.Shown env r) (ns : OAuth.Namespace) (raw : String)
    {value : OAuth.Value} (hnodup : (value.map Prod.fst).Nodup)
    (hoauth : ns = .oauth → ∃ t : OAuth.OAuthTransaction, value = t.asdict) (d : Time) :
    Stores.Shown env { s with values := s.values.put (OAuth.key env ns raw) value d }
      (r.set (OAuth.key env ns raw) (dumpsTexts value) d) where
  values := h.values.set _ value d
  logins := h.logins.set_other (fun ⟨state, he⟩ => key_ne_oauthKey ns raw state he) _ d
  sessions := h.sessions.set_other (fun ⟨id, he⟩ => key_ne_sessionKey ns raw id he) _ d
  nodup := by
    intro k v d' hlive
    rcases slot_set hlive with ⟨-, hlive⟩ | ⟨-, he⟩
    · exact h.nodup k v d' hlive
    · cases he
      exact hnodup
  oauth := by
    intro state v d' hlive
    rcases slot_set hlive with ⟨-, hlive⟩ | ⟨hk, he⟩
    · exact h.oauth state v d' hlive
    · cases he
      exact hoauth (OAuth.key_namespace hk).symm

/-- A value is taken, or there was none. -/
theorem Stores.Shown.take (h : s.Shown env r) (ns : OAuth.Namespace) (raw : String) (rid : ℕ)
    (now : Time) :
    Stores.Shown env { s with values := (s.values.take (OAuth.key env ns raw) rid now).2 }
      (r.delete (OAuth.key env ns raw)) where
  values := h.values.delete _
  logins := h.logins.delete_other fun ⟨state, he⟩ => key_ne_oauthKey ns raw state he
  sessions := h.sessions.delete_other fun ⟨id, he⟩ => key_ne_sessionKey ns raw id he
  nodup k v d hlive := h.nodup k v d (slot_clear hlive).2
  oauth state v d hlive := h.oauth state v d (slot_clear hlive).2

theorem Stores.Shown.begin (h : s.Shown env r) (state : String) (transaction : LoginTransaction)
    (d : Time) :
    Stores.Shown env { s with logins := s.logins.put (oauthKey env state) transaction d }
      (r.set (oauthKey env state) (loginTransaction.keep transaction) d) where
  values := h.values.set_other (fun ⟨ns, raw, he⟩ => key_ne_oauthKey ns raw state he.symm) _ d
  logins := h.logins.set _ transaction d
  sessions := h.sessions.set_other (fun ⟨id, he⟩ => oauthKey_ne_sessionKey state id he) _ d
  nodup := h.nodup
  oauth := h.oauth

theorem Stores.Shown.complete (h : s.Shown env r) (state : String) (rid : ℕ) (now : Time) :
    Stores.Shown env { s with logins := (s.logins.take (oauthKey env state) rid now).2 }
      (r.delete (oauthKey env state)) where
  values := h.values.delete_other fun ⟨ns, raw, he⟩ => key_ne_oauthKey ns raw state he.symm
  logins := h.logins.delete _
  sessions := h.sessions.delete_other fun ⟨id, he⟩ => oauthKey_ne_sessionKey state id he
  nodup := h.nodup
  oauth := h.oauth

theorem Stores.Shown.create (h : s.Shown env r) (sessionId : String) (session : BffSession)
    (d : Time) :
    Stores.Shown env
      { s with
        sessions := Function.update s.sessions (sessionKey env sessionId) (some (session, d)) }
      (r.set (sessionKey env sessionId) (bffSession.keep session) d) where
  values := h.values.set_other
    (fun ⟨ns, raw, he⟩ => key_ne_sessionKey ns raw sessionId he.symm) _ d
  logins := h.logins.set_other
    (fun ⟨state, he⟩ => oauthKey_ne_sessionKey state sessionId he.symm) _ d
  sessions := h.sessions.set _ session d
  nodup := h.nodup
  oauth := h.oauth

theorem Stores.Shown.delete (h : s.Shown env r) (sessionId : String) :
    Stores.Shown env
      { s with sessions := Function.update s.sessions (sessionKey env sessionId) none }
      (r.delete (sessionKey env sessionId)) where
  values := h.values.delete_other fun ⟨ns, raw, he⟩ => key_ne_sessionKey ns raw sessionId he.symm
  logins := h.logins.delete_other
    fun ⟨state, he⟩ => oauthKey_ne_sessionKey state sessionId he.symm
  sessions := h.sessions.delete _
  nodup := h.nodup
  oauth := h.oauth

/-! ### What is read -/

theorem readValue_dumpsTexts {v : OAuth.Value} (h : (v.map Prod.fst).Nodup) :
    readValue (dumpsTexts v) = .ok v := by
  unfold readValue
  rw [loadsText_dumpsTexts h]
  dsimp only
  rw [textsOf_jsonOf]

/-- A value that is there is read as it is. -/
theorem decodeReply_map {α : Type} {read : String → Except ReadError α} {encode : α → String}
    (reply : Option α → Reply) {found : Option α}
    (h : ∀ a, found = some a → read (encode a) = .ok a) :
    decodeReply read reply (found.map encode) = reply found := by
  cases found with
  | none => rfl
  | some a =>
      simp only [Option.map_some, decodeReply, h a rfl]

theorem Stores.Shown.get_value (h : s.Shown env r) (ns : OAuth.Namespace) (raw : String)
    (now : Time) : r.get (OAuth.key env ns raw) now =
      (s.values.read (OAuth.key env ns raw) now).map dumpsTexts :=
  h.values.get ⟨ns, raw, rfl⟩ now

theorem Stores.Shown.get_login (h : s.Shown env r) (state : String) (now : Time) :
    r.get (oauthKey env state) now =
      (s.logins.read (oauthKey env state) now).map loginTransaction.keep :=
  h.logins.get ⟨state, rfl⟩ now

/-- A call is answered out of the texts as it is by the stores, and the texts go on to show them. -/
theorem call_shows (h : s.Shown env r) {c : Call} (hc : c.Typed) :
    (callTexts env r c).1 = (callStores env s c).1 ∧
      (callStores env s c).2.Shown env (callTexts env r c).2 ∧
      ∀ e, (callStores env s c).1 ≠ .raised e := by
  cases c with
  | put ns value ttl raw now => exact ⟨rfl, h.put ns raw hc.1 hc.2 _, fun _ he => by cases he⟩
  | take ns raw rid now =>
      refine ⟨?_, h.take ns raw rid now, fun _ he => by cases he⟩
      show decodeReply readValue .value (r.get _ now) = .value (s.values.read _ now)
      rw [h.get_value]
      refine decodeReply_map .value ?_
      intro v hv
      obtain ⟨d, hlive⟩ := OneTime.live_of_read hv
      exact readValue_dumpsTexts (h.nodup _ v d hlive)
  | consumeOauth state rid now =>
      have htake := h.take .oauth state rid now
      have hget := h.get_value .oauth state now
      have hread : (s.values.take (OAuth.key env .oauth state) rid now).1 =
        s.values.read (OAuth.key env .oauth state) now := rfl
      simp only [callTexts, callStores, Texts.getdel, hget, hread]
      cases hv : s.values.read (OAuth.key env .oauth state) now with
      | none => exact ⟨rfl, htake, fun _ he => by cases he⟩
      | some v =>
          obtain ⟨d, hlive⟩ := OneTime.live_of_read hv
          obtain ⟨t, rfl⟩ := h.oauth state v d hlive
          have hdecode : oauthTransaction.read (dumpsTexts t.asdict) = .ok t :=
            oauthTransaction.read_keep t
          refine ⟨?_, htake, fun _ he => by cases he⟩
          simp only [Option.map_some, decodeReply, hdecode]
          rfl
  | begin state transaction now => exact ⟨rfl, h.begin state transaction _, fun _ he => by cases he⟩
  | complete state rid now =>
      refine ⟨?_, h.complete state rid now, fun _ he => by cases he⟩
      show decodeReply loginTransaction.read .login (r.get _ now) = .login (s.logins.read _ now)
      rw [h.get_login]
      exact decodeReply_map .login fun t _ => loginTransaction.read_keep t
  | create sessionId session ttl now =>
      exact ⟨rfl, h.create sessionId session _, fun _ he => by cases he⟩
  | get sessionId now =>
      refine ⟨?_, h, fun _ he => by cases he⟩
      show decodeReply bffSession.read .session (r.get _ now) = .session _
      rw [h.sessions.get ⟨sessionId, rfl⟩]
      exact decodeReply_map .session fun t _ => bffSession.read_keep t
  | delete sessionId => exact ⟨rfl, h.delete sessionId, fun _ he => by cases he⟩

end Shown

/-! ## The services -/

/-- The SSO and the BFF, and what `session_info` has answered. -/
structure Site where
  sso : OAuth.Sys
  bff : Portal
  infos : List (Handled (List (String × String)))

def Site.start (db : Db) : Site := ⟨.start db, .start, []⟩

/-- A step of a request to either service, or a whole `session_info`. -/
inductive SiteStep where
  | sso (l : OAuth.Label)
  | bff (l : PortalStep)
  | sessionInfo (cookie : Option String) (now : Time)

def Site.step (cfg : Config) (env : Env) (publicOrigin : String) (x : Site) : SiteStep → Site
  | .sso l => { x with sso := OAuth.step env x.sso l }
  | .bff l => { x with bff := x.bff.step cfg env publicOrigin l }
  | .sessionInfo cookie now =>
      { x with infos := Bff.sessionInfo env x.bff.server cookie now :: x.infos }

def Site.stores (x : Site) : Stores := ⟨x.sso.redis, x.bff.server.redis, x.bff.server.sessions⟩

/-- The services with other stores. -/
def Site.over (x : Site) (s : Stores) : Site where
  sso := { x.sso with redis := s.values }
  bff := { x.bff with server := { x.bff.server with redis := s.logins, sessions := s.sessions } }
  infos := x.infos

/-- The call of a step of the SSO. -/
def ssoCall (s : OAuth.Sys) : OAuth.Label → Option Call
  | .authorize _ query raw now =>
      match query.check with
      | .error _ => none
      | .ok t => some (.put .oauth t.asdict 300 raw now)
  | .fakeAuthorize _ state account raw now =>
      (OAuth.accounts.lookup account).map fun identity =>
        .put .providerCode (identity.result state) 60 raw now
  | .callback rid state _ now => some (.consumeOauth state rid now)
  | .exchange rid now =>
      match s.tasks rid with
      | some (.exchange _ code _) => some (.take .providerCode code rid now)
      | _ => none
  | .issueCode rid raw now =>
      match s.tasks rid with
      | some (.issueCode _ _ t policy l) =>
          some (.put .authorizationCode (OAuth.codeGrant l.userId policy t) 60 raw now)
      | _ => none
  | .token rid form now =>
      (form.bind OAuth.TokenRequest.ofForm).map fun r => .take .authorizationCode r.code rid now
  | .login .. | .bundle .. | .drop _ | .other _ => none

/-- The call of a step of the BFF. -/
def bffCall (cfg : Config) (x : Portal) : PortalStep → Option Call
  | .flow (.login _ returnTo state verifier now) =>
      (cfg.safeReturnPath returnTo).map fun path => .begin state ⟨verifier, path⟩ now
  | .flow (.callback rid _ state _ now) => some (.complete state rid now)
  | .flow (.exchanged _ _) => none
  | .flow (.create rid sessionId csrfToken now) =>
      match x.server.tasks rid with
      | some (.creating _ _ _ tokens) =>
          some (.create sessionId (tokens.session csrfToken) cfg.sessionTtl now)
      | _ => none
  | .logout _ request now => request.cookie.map fun sessionId => .get sessionId now
  | .delete rid =>
      match x.logouts rid with
      | some (.deleting _ sessionId _) => some (.delete sessionId)
      | _ => none
  | .revoke _ _ | .drop _ => none

def Site.call (cfg : Config) (x : Site) : SiteStep → Option Call
  | .sso l => ssoCall x.sso l
  | .bff l => bffCall cfg x.bff l
  | .sessionInfo cookie now => cookie.map fun sessionId => .get sessionId now

variable {cfg : Config} {env : Env} {publicOrigin : String} {x : Site} {l : SiteStep} {c : Call}

/-- What a step calls for does not depend on the stores. -/
theorem call_over (s : Stores) : (x.over s).call cfg l = x.call cfg l := by
  cases l with
  | sso l => cases l <;> rfl
  | bff l =>
      cases l with
      | flow l => cases l <;> rfl
      | _ => rfl
  | sessionInfo cookie now => rfl

/-- The services put what is typed. -/
theorem call_typed (h : x.call cfg l = some c) : c.Typed := by
  cases l with
  | sso l =>
      cases l with
      | authorize rid query raw now =>
          simp only [Site.call, ssoCall] at h
          split at h
          · cases h
          · next t _ =>
              cases h
              exact ⟨oauthTransaction.nodup, fun _ => ⟨t, rfl⟩⟩
      | fakeAuthorize rid state account raw now =>
          obtain ⟨identity, -, rfl⟩ := Option.map_eq_some_iff.mp h
          exact ⟨(by decide : ["state", "provider", "provider_subject"].Nodup), fun h => by cases h⟩
      | callback rid state code now =>
          cases h
          trivial
      | exchange rid now =>
          simp only [Site.call, ssoCall] at h
          split at h
          · cases h
            trivial
          · cases h
      | issueCode rid raw now =>
          simp only [Site.call, ssoCall] at h
          split at h
          · cases h
            have hnodup : ["user_id", "client_id", "redirect_uri", "code_challenge"].Nodup := by
              decide
            exact ⟨hnodup, fun h => by cases h⟩
          · cases h
      | token rid form now =>
          obtain ⟨r, -, rfl⟩ := Option.map_eq_some_iff.mp h
          trivial
      | login | bundle | drop | other => cases h
  | bff l =>
      cases l with
      | flow l =>
          cases l with
          | login browser returnTo state verifier now =>
              obtain ⟨path, -, rfl⟩ := Option.map_eq_some_iff.mp h
              trivial
          | callback rid browser state code now =>
              cases h
              trivial
          | exchanged => cases h
          | create rid sessionId csrfToken now =>
              simp only [Site.call, bffCall] at h
              split at h
              · cases h
                trivial
              · cases h
      | logout rid request now =>
          obtain ⟨sessionId, -, rfl⟩ := Option.map_eq_some_iff.mp h
          trivial
      | delete rid =>
          simp only [Site.call, bffCall] at h
          split at h
          · cases h
            trivial
          · cases h
      | revoke | drop => cases h
  | sessionInfo cookie now =>
      obtain ⟨sessionId, -, rfl⟩ := Option.map_eq_some_iff.mp h
      trivial

/-! ### What a step does with its store -/

/-- Without a call, a step leaves the stores as they are and does not look at them. -/
theorem quiet_step (hcall : x.call cfg l = none) (s : Stores) :
    (x.over s).step cfg env publicOrigin l = (x.step cfg env publicOrigin l).over s := by
  cases l with
  | sso l =>
      cases l with
      | authorize rid query raw now =>
          simp only [Site.call, ssoCall] at hcall
          split at hcall
          · next a ha =>
              simp only [Site.step, OAuth.step, OAuth.authorize, ha]
              rfl
          · cases hcall
      | fakeAuthorize rid state account raw now =>
          have hnone := Option.map_eq_none_iff.mp hcall
          simp only [Site.step, OAuth.step, OAuth.fakeAuthorize, hnone]
          rfl
      | callback => cases hcall
      | exchange rid now =>
          simp only [Site.call, ssoCall] at hcall
          split at hcall
          · cases hcall
          · simp only [Site.step, OAuth.step, Site.over]
      | login rid uid =>
          simp only [Site.step, OAuth.step, Site.over]
          split
          · simp only [OAuth.login]
            split <;> rfl
          · rfl
      | issueCode rid raw now =>
          simp only [Site.call, ssoCall] at hcall
          split at hcall
          · cases hcall
          · simp only [Site.step, OAuth.step, Site.over]
      | token rid form now =>
          have hnone := Option.map_eq_none_iff.mp hcall
          cases form with
          | none => rfl
          | some form =>
              rw [Option.bind_some] at hnone
              simp only [Site.step, OAuth.step, OAuth.token, hnone]
              rfl
      | bundle rid fresh activeKid now =>
          simp only [Site.step, OAuth.step, Site.over]
          split
          · simp only [OAuth.bundle]
            split
            · rfl
            · split <;> rfl
          · rfl
      | drop rid => rfl
      | other db => rfl
  | bff l =>
      cases l with
      | flow l =>
          cases l with
          | login browser returnTo state verifier now =>
              have hnone := Option.map_eq_none_iff.mp hcall
              simp only [Site.step, Portal.step, Bff.step, hnone]
              rfl
          | callback => cases hcall
          | exchanged rid outcome =>
              simp only [Site.step, Portal.step, Bff.step, Site.over]
              split
              · split <;> rfl
              · rfl
          | create rid sessionId csrfToken now =>
              simp only [Site.call, bffCall] at hcall
              split at hcall
              · cases hcall
              · simp only [Site.step, Portal.step, Bff.step, Server.makes, Site.over]
      | logout rid request now =>
          have hnone := Option.map_eq_none_iff.mp hcall
          simp only [Site.step, Portal.step, LogoutRequest.check, hnone]
          rfl
      | revoke rid returns =>
          simp only [Site.step, Portal.step, Site.over]
          split
          · split <;> rfl
          · rfl
      | delete rid =>
          simp only [Site.call, bffCall] at hcall
          split at hcall
          · cases hcall
          · simp only [Site.step, Portal.step, Site.over]
      | drop rid => rfl
  | sessionInfo cookie now =>
      rw [Option.map_eq_none_iff.mp hcall]
      rfl

/-- With a call, it changes the stores as the call does. -/
theorem call_step (hcall : x.call cfg l = some c) :
    (x.step cfg env publicOrigin l).stores = (callStores env x.stores c).2 := by
  cases l with
  | sso l =>
      cases l with
      | authorize rid query raw now =>
          simp only [Site.call, ssoCall] at hcall
          split at hcall
          · cases hcall
          · next t ht =>
              cases hcall
              simp only [Site.step, OAuth.step, OAuth.authorize, ht]
              rfl
      | fakeAuthorize rid state account raw now =>
          obtain ⟨identity, hidentity, rfl⟩ := Option.map_eq_some_iff.mp hcall
          simp only [Site.step, OAuth.step, OAuth.fakeAuthorize, hidentity]
          rfl
      | callback rid state code now =>
          cases hcall
          simp only [Site.step, OAuth.step, OAuth.callback]
          split
          · rfl
          · split <;> rfl
      | exchange rid now =>
          simp only [Site.call, ssoCall] at hcall
          split at hcall
          · next state code t htask =>
              cases hcall
              simp only [Site.step, OAuth.step, OAuth.exchange, htask]
              split
              · rfl
              · split <;> rfl
          · cases hcall
      | issueCode rid raw now =>
          simp only [Site.call, ssoCall] at hcall
          split at hcall
          · next htask =>
              cases hcall
              simp only [Site.step, OAuth.step, OAuth.issueCode, htask]
              rfl
          · cases hcall
      | token rid form now =>
          obtain ⟨r, hr, rfl⟩ := Option.map_eq_some_iff.mp hcall
          obtain ⟨form, rfl, hform⟩ := Option.bind_eq_some_iff.mp hr
          simp only [Site.step, OAuth.step, OAuth.token, hform]
          split
          · rfl
          · split
            · split <;> rfl
            · rfl
      | login | bundle | drop | other => cases hcall
  | bff l =>
      cases l with
      | flow l =>
          cases l with
          | login browser returnTo state verifier now =>
              obtain ⟨path, hpath, rfl⟩ := Option.map_eq_some_iff.mp hcall
              simp only [Site.step, Portal.step, Bff.step, hpath]
              rfl
          | callback rid browser state code now =>
              cases hcall
              simp only [Site.step, Portal.step, Bff.step]
              split <;> rfl
          | exchanged => cases hcall
          | create rid sessionId csrfToken now =>
              simp only [Site.call, bffCall] at hcall
              split at hcall
              · next htask =>
                  cases hcall
                  simp only [Site.step, Portal.step, Bff.step, htask]
                  rfl
              · cases hcall
      | logout rid request now =>
          obtain ⟨sessionId, -, rfl⟩ := Option.map_eq_some_iff.mp hcall
          simp only [Site.step, Portal.step]
          split <;> rfl
      | delete rid =>
          simp only [Site.call, bffCall] at hcall
          split at hcall
          · next htask =>
              cases hcall
              simp only [Site.step, Portal.step, htask]
              rfl
          · cases hcall
      | revoke | drop => cases hcall
  | sessionInfo cookie now =>
      obtain ⟨sessionId, -, rfl⟩ := Option.map_eq_some_iff.mp hcall
      rfl

/-- Values that `consume_oauth` answers alike. -/
theorem consumedOauth_eq {value value' : Option OAuth.Value}
    (h : consumedOauth value' = consumedOauth value)
    (hread : ∀ e, consumedOauth value ≠ .raised e) :
    value = none ∧ value' = none ∨
      ∃ v v' t, value = some v ∧ value' = some v' ∧ OAuth.OAuthTransaction.ofDict v = some t ∧
        OAuth.OAuthTransaction.ofDict v' = some t := by
  have hsome : ∀ {value : Option OAuth.Value} {t : Option OAuth.OAuthTransaction},
      consumedOauth value = .oauth t → value = none ∧ t = none ∨
        ∃ v t', value = some v ∧ t = some t' ∧ OAuth.OAuthTransaction.ofDict v = some t' := by
    intro value t ht
    cases value with
    | none =>
        cases ht
        exact Or.inl ⟨rfl, rfl⟩
    | some v =>
        simp only [consumedOauth] at ht
        split at ht
        · cases ht
        · next t' hv =>
            cases ht
            exact Or.inr ⟨v, t', rfl, rfl, hv⟩
  have hreply : ∃ t, consumedOauth value = .oauth t := by
    cases value with
    | none => exact ⟨none, rfl⟩
    | some v =>
        simp only [consumedOauth] at hread ⊢
        split
        · next hv =>
            rw [hv] at hread
            exact absurd rfl (hread .typeError)
        · next t _ => exact ⟨some t, rfl⟩
  obtain ⟨t, ht⟩ := hreply
  rcases hsome ht with ⟨hvalue, rfl⟩ | ⟨v, t, hvalue, rfl, hv⟩
  · rcases hsome (h.trans ht) with ⟨hvalue', -⟩ | ⟨v', t', hvalue', hno, -⟩
    · exact Or.inl ⟨hvalue, hvalue'⟩
    · cases hno
  · rcases hsome (h.trans ht) with ⟨hvalue', hno⟩ | ⟨v', t', hvalue', ht', hv'⟩
    · cases hno
    · cases ht'
      exact Or.inr ⟨v, v', t, hvalue, hvalue', hv, hv'⟩

/-- It needs of its stores just the answer. -/
theorem narrow_step (hcall : x.call cfg l = some c) (s : Stores)
    (hreply : (callStores env s c).1 = (callStores env x.stores c).1)
    (hread : ∀ e, (callStores env x.stores c).1 ≠ .raised e) :
    ((x.over s).step cfg env publicOrigin l).over .empty =
      (x.step cfg env publicOrigin l).over .empty := by
  cases l with
  | sso l =>
      cases l with
      | authorize rid query raw now =>
          simp only [Site.step, OAuth.step, OAuth.authorize]
          split <;> rfl
      | fakeAuthorize rid state account raw now =>
          simp only [Site.step, OAuth.step, OAuth.fakeAuthorize]
          split <;> rfl
      | callback rid state code now =>
          cases hcall
          simp only [Site.step, OAuth.step, OAuth.callback, Site.over]
          have hconsumed : consumedOauth (s.values.take (OAuth.key env .oauth state) rid now).1 =
              consumedOauth (x.sso.redis.take (OAuth.key env .oauth state) rid now).1 := hreply
          rcases consumedOauth_eq hconsumed hread with
            ⟨hvalue, hvalue'⟩ | ⟨v, v', t, hvalue, hvalue', hv, hv'⟩
          · simp only [hvalue, hvalue']
            rfl
          · simp only [hvalue, hvalue', hv, hv']
            rfl
      | exchange rid now =>
          simp only [Site.call, ssoCall] at hcall
          split at hcall
          · next state code t htask =>
              cases hcall
              have hvalue : (s.values.take (OAuth.key env .providerCode code) rid now).1 =
                  (x.sso.redis.take (OAuth.key env .providerCode code) rid now).1 :=
                Reply.value.inj hreply
              simp only [Site.step, OAuth.step, OAuth.exchange, OAuth.providerExchange, Site.over,
                htask, hvalue]
              split
              · rfl
              · split <;> rfl
          · cases hcall
      | issueCode rid raw now =>
          simp only [Site.step, OAuth.step, Site.over]
          split <;> rfl
      | token rid form now =>
          obtain ⟨r, hr, rfl⟩ := Option.map_eq_some_iff.mp hcall
          obtain ⟨form, rfl, hform⟩ := Option.bind_eq_some_iff.mp hr
          have hvalue : (s.values.take (OAuth.key env .authorizationCode r.code) rid now).1 =
              (x.sso.redis.take (OAuth.key env .authorizationCode r.code) rid now).1 :=
            Reply.value.inj hreply
          simp only [Site.step, OAuth.step, OAuth.token, Site.over, hform, hvalue]
          split
          · rfl
          · split
            · split <;> rfl
            · rfl
      | login | bundle | drop | other => cases hcall
  | bff l =>
      cases l with
      | flow l =>
          cases l with
          | login browser returnTo state verifier now =>
              simp only [Site.step, Portal.step, Bff.step]
              split <;> rfl
          | callback rid browser state code now =>
              cases hcall
              have hvalue : (s.logins.take (oauthKey env state) rid now).1 =
                  (x.bff.server.redis.take (oauthKey env state) rid now).1 :=
                Reply.login.inj hreply
              simp only [Site.step, Portal.step, Bff.step, Site.over, hvalue]
              split <;> rfl
          | exchanged => cases hcall
          | create rid sessionId csrfToken now =>
              simp only [Site.step, Portal.step, Bff.step, Site.over]
              split <;> rfl
      | logout rid request now =>
          obtain ⟨sessionId, hcookie, rfl⟩ := Option.map_eq_some_iff.mp hcall
          have hsession := Reply.session.inj hreply
          have hget : Server.getSession env
              { x.bff.server with redis := s.logins, sessions := s.sessions } sessionId now =
                x.bff.server.getSession env sessionId now := hsession
          simp only [Site.step, Portal.step, LogoutRequest.check, Site.over, hcookie, hget]
          cases x.bff.server.getSession env sessionId now with
          | none => rfl
          | some session =>
              dsimp only
              cases logoutCsrf request.origin publicOrigin request.xCsrfToken session.csrfToken <;>
                rfl
      | delete rid =>
          simp only [Site.step, Portal.step, Site.over]
          split <;> rfl
      | revoke | drop => cases hcall
  | sessionInfo cookie now =>
      obtain ⟨sessionId, rfl, rfl⟩ := Option.map_eq_some_iff.mp hcall
      have hsession := Reply.session.inj hreply
      have hget : Server.getSession env
          { x.bff.server with redis := s.logins, sessions := s.sessions } sessionId now =
            x.bff.server.getSession env sessionId now := hsession
      simp only [Site.step, Site.over, Bff.sessionInfo, Option.bind_some, hget]

/-! ## The services over texts -/

/-- The stores of which a call has the answer `a`, and which have nothing else. -/
def Stores.holding (env : Env) : Call → Reply → Stores
  | .take ns raw _ now, .value (some value) =>
      { Stores.empty with values := OneTime.empty.put (OAuth.key env ns raw) value (now + 1) }
  | .consumeOauth state _ now, .oauth (some t) =>
      { Stores.empty with
        values := OneTime.empty.put (OAuth.key env .oauth state) t.asdict (now + 1) }
  | .complete state _ now, .login (some t) =>
      { Stores.empty with logins := OneTime.empty.put (oauthKey env state) t (now + 1) }
  | .get sessionId now, .session (some session) =>
      { Stores.empty with
        sessions := Function.update (fun _ => none) (sessionKey env sessionId)
          (some (session, now + 1)) }
  | _, _ => .empty

/-- What was put is read before its deadline. -/
theorem read_put_empty {α : Type} (k : String) (v : α) (now : Time) :
    (OneTime.empty.put k v (now + 1) : OneTime String α Time ℕ).read k now = some v := by
  have hlt : now < now + 1 := lt_add_one now
  have hlive : (OneTime.empty.put k v (now + 1) : OneTime String α Time ℕ).live k =
      some (v, now + 1) := Function.update_self ..
  unfold OneTime.read
  rw [hlive]
  exact if_pos hlt

/-- They give the answer. -/
theorem reply_holding (env : Env) (s : Stores) (c : Call)
    (hread : ∀ e, (callStores env s c).1 ≠ .raised e) :
    (callStores env (.holding env c (callStores env s c).1) c).1 = (callStores env s c).1 := by
  cases c with
  | put | begin | create | delete => rfl
  | take ns raw rid now =>
      have htake : (callStores env s (.take ns raw rid now)).1 =
        .value (s.values.read (OAuth.key env ns raw) now) := rfl
      rw [htake]
      cases s.values.read (OAuth.key env ns raw) now with
      | none => rfl
      | some v => exact congrArg Reply.value (read_put_empty _ v now)
  | consumeOauth state rid now =>
      have htake : (callStores env s (.consumeOauth state rid now)).1 =
        consumedOauth (s.values.read (OAuth.key env .oauth state) now) := rfl
      rw [htake] at hread ⊢
      cases hvalue : s.values.read (OAuth.key env .oauth state) now with
      | none => rfl
      | some v =>
          rw [hvalue] at hread
          simp only [consumedOauth] at hread ⊢
          cases hv : OAuth.OAuthTransaction.ofDict v with
          | none =>
              rw [hv] at hread
              exact absurd rfl (hread .typeError)
          | some t => exact congrArg consumedOauth (read_put_empty _ t.asdict now)
  | complete state rid now =>
      have htake : (callStores env s (.complete state rid now)).1 =
        .login (s.logins.read (oauthKey env state) now) := rfl
      rw [htake]
      cases s.logins.read (oauthKey env state) now with
      | none => rfl
      | some t => exact congrArg Reply.login (read_put_empty _ t now)
  | get sessionId now =>
      have hlt : now < now + 1 := lt_add_one now
      simp only [callStores]
      cases (s.sessions (sessionKey env sessionId)).bind
          fun (session, deadline) => if now < deadline then some session else none with
      | none => rfl
      | some session =>
          simp only [Stores.holding, Function.update_self, Option.bind_some, if_pos hlt]

/-- What was raised. -/
def Reply.error : Reply → Option ReadError
  | .raised e => some e
  | _ => none

theorem error_eq_none {a : Reply} (h : ∀ e, a ≠ .raised e) : a.error = none := by
  cases a with
  | raised e => exact absurd rfl (h e)
  | _ => rfl

/-- The services over one server: what they hold besides their stores, the texts, and what was
    raised where a text was read. -/
structure Deployed where
  site : Site
  redis : Texts String Time
  raised : List ReadError

def Deployed.start (db : Db) : Deployed := ⟨.start db, .empty, []⟩

/-- A step goes on with what its call reads out of the texts. -/
def Deployed.step (cfg : Config) (env : Env) (publicOrigin : String) (y : Deployed)
    (l : SiteStep) : Deployed :=
  match y.site.call cfg l with
  | none => { y with site := (y.site.step cfg env publicOrigin l).over .empty }
  | some c =>
      let (a, redis) := callTexts env y.redis c
      match a.error with
      | some e => { y with redis, raised := e :: y.raised }
      | none =>
          { y with
            redis
            site := ((y.site.over (.holding env c a)).step cfg env publicOrigin l).over .empty }

/-- The services over the typed stores and over texts. -/
structure Deployed.Agrees (env : Env) (x : Site) (y : Deployed) : Prop where
  site : y.site = x.over .empty
  raised : y.raised = []
  shown : x.stores.Shown env y.redis

theorem agrees_step {y : Deployed} (h : y.Agrees env x) (l : SiteStep) :
    (y.step cfg env publicOrigin l).Agrees env (x.step cfg env publicOrigin l) := by
  have hcall : y.site.call cfg l = x.call cfg l := by rw [h.site, call_over]
  unfold Deployed.step
  rw [hcall]
  cases hc : x.call cfg l with
  | none =>
      have hquiet : ∀ s, (x.over s).step cfg env publicOrigin l =
        (x.step cfg env publicOrigin l).over s := quiet_step hc
      have hsame : x.step cfg env publicOrigin l =
        (x.step cfg env publicOrigin l).over x.stores := hquiet x.stores
      have hstores : (x.step cfg env publicOrigin l).stores = x.stores := by
        have hcongr := congrArg Site.stores hsame
        exact hcongr
      refine ⟨?_, h.raised, hstores ▸ h.shown⟩
      dsimp only
      rw [h.site, hquiet]
      rfl
  | some c =>
      obtain ⟨hreply, hshown, hread⟩ := call_shows h.shown (call_typed hc)
      have hstores : (x.step cfg env publicOrigin l).stores = (callStores env x.stores c).2 :=
        call_step hc
      dsimp only
      rw [hreply, error_eq_none hread]
      refine ⟨?_, h.raised, hstores ▸ hshown⟩
      dsimp only
      rw [h.site]
      exact narrow_step hc _ (reply_holding env x.stores c hread) hread

theorem agrees_start (env : Env) (db : Db) : (Deployed.start db).Agrees env (.start db) :=
  ⟨rfl, rfl, shown_empty⟩

/-- Over one server of JSON texts, every run is answered as over the typed stores: nothing is
    raised where a text is read, and the texts are those of the stores. -/
theorem deployed_agrees (cfg : Config) (env : Env) (publicOrigin : String) (db : Db)
    (ls : List SiteStep) :
    (run (Deployed.step cfg env publicOrigin) (.start db) ls).Agrees env
      (run (Site.step cfg env publicOrigin) (.start db) ls) :=
  run_simulates (Site.step cfg env publicOrigin) (Deployed.step cfg env publicOrigin)
    (fun x y => y.Agrees env x) (fun _ _ l h => agrees_step h l) (agrees_start env db) ls

end TemisLab.Bff
