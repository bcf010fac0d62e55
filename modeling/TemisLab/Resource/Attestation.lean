/-
  Soundness of `JwksVerifier`. Calls of `authenticate` interleave at their awaits, under every
  clock that does not go back and every behaviour of `fetch_jwks` and `status_check`.

  * `Attested`: what stands behind a `Principal`: the header, the key of the document that was
    current when it was read, PyJWT's verification under it, the binding of the token, and a
    true answer of `status_check` for its subject and version.
  * `principal_attested`: in every run, every call that returns a `Principal` is attested.

  The invariant ties each cached field to the history: the keys and their deadlines to the last
  accepted document (`Coherent.latest`), a status entry to a true answer. The history only
  grows (`Extends`), so what a call has found stays true while it awaits.
-/
import TemisLab.Resource.Verifier
import Mathlib.Tactic.Linarith

namespace TemisLab.Resource

open TemisLab.Lib TemisLab.Sso TemisLab.Keyring

variable {Token : Type} (cfg : Settings) (J : Jwt Token)

/-- `jwt.decode` compares the issuer. -/
def Jwt.ChecksIssuer : Prop :=
  ∀ key issuer audience wall token claims,
    J.decode key issuer audience wall token = some claims →
    claims.lookup "iss" = some (.str issuer)

/-- The document in force once `n` had been accepted. -/
def Service.docAt (s : Service Token) (n : ℕ) : Option Accepted := (s.accepted.take n).getLast?

/-- The key was the kid's in the document in force when it was read, and that document had been
    accepted during the call or was young enough at that moment of it. -/
def Service.Supplies (s : Service Token) (a : Attempt Token) (kid : String) (r : Reading) : Prop :=
  ∃ d keys, s.docAt r.docs = some d ∧
    safeRefresh J (.document d.document) = .ok (d.document, keys) ∧
    keys.lookup kid = some r.key ∧ r.docs ≤ s.accepted.length ∧
    (a.docs < r.docs ∨ (a.began ≤ r.time ∧ d.time ≤ r.time ∧
      r.time - d.time < cfg.jwksTtl + cfg.jwksStaleTtl))

/-- What stands behind a `Principal`. -/
structure Attested (s : Service Token) (e : Ended Token) (p : Principal) (v : Verified) :
    Prop where
  header : ∃ header, J.getUnverifiedHeader e.attempt.token = some header ∧
    header.lookup "alg" = some (.str "RS256") ∧ header.lookup "kid" = some (.str v.kid)
  key : s.Supplies cfg J e.attempt v.kid v.reading ∧ v.reading.time ≤ e.time
  decoded : ∃ wall, J.decode v.reading.key cfg.issuer cfg.audience wall e.attempt.token =
    some v.claims
  bound : v.claims.lookup "iss" = some (.str cfg.issuer) ∧
    v.claims.lookup "aud" = some (.str cfg.audience) ∧
    v.claims.lookup "azp" = some (.str cfg.authorizedParty)
  principal : v.claims.lookup "sub" = some (.str p.subject) ∧
    Dict.int v.claims "authz_version" = some p.authzVersion ∧
    v.subject = p.subject ∧ v.version = p.authzVersion
  confirmed : ∃ n c, s.confirmed[n]? = some c ∧ n < e.confirms ∧ c.subject = p.subject ∧
    c.version = p.authzVersion ∧
    (e.attempt.confirms ≤ n ∨ v.consulted - c.time < cfg.statusTtl)

/-! ## The invariant -/

structure Coherent (s : Service Token) : Prop where
  latest : s.cache.keys = [] ∨ ∃ d, s.docAt s.accepted.length = some d ∧
    safeRefresh J (.document d.document) = .ok (d.document, s.cache.keys) ∧
    d.time ≤ s.clock ∧ s.cache.jwksUntil = d.time + cfg.jwksTtl ∧
    s.cache.jwksStaleUntil = d.time + cfg.jwksTtl + cfg.jwksStaleTtl
  status : ∀ subject deadline version, s.cache.status subject = some (deadline, version) →
    ∃ c ∈ s.confirmed, c.subject = subject ∧ c.version = version ∧
      deadline = c.time + cfg.statusTtl
  ended : ∀ e ∈ s.ended, ∀ p v, e.outcome = .returned p v → Attested cfg J s e p v

/-- A call that has passed the header checks. -/
structure Begun (s : Service Token) (a : Attempt Token) (kid : String) : Prop where
  header : ∃ header, J.getUnverifiedHeader a.token = some header ∧
    header.lookup "alg" = some (.str "RS256") ∧ header.lookup "kid" = some (.str kid)
  began : a.began ≤ s.clock
  docs : a.docs ≤ s.accepted.length
  confirms : a.confirms ≤ s.confirmed.length

/-- A call that has verified its token. -/
structure Checked (s : Service Token) (a : Attempt Token) (v : Verified) : Prop where
  begun : Begun J s a v.kid
  key : s.Supplies cfg J a v.kid v.reading
  read : v.reading.time ≤ s.clock
  decoded : ∃ wall, J.decode v.reading.key cfg.issuer cfg.audience wall a.token = some v.claims
  bound : binding cfg v.claims = some (v.subject, v.version)

/-- What holds of a call at each of its awaits. -/
def Awaits (s : Service Token) : Task Token → Prop
  | .idle | .entered _ => True
  | .lockStale a kid | .fetchStale a kid | .fetchUnknown a kid => Begun J s a kid
  | .lockUnknown a kid missed =>
      Begun J s a kid ∧ a.docs ≤ missed ∧ missed ≤ s.accepted.length ∧
        (missed = s.accepted.length → s.cache.keys.lookup kid = none)
  | .statusCheck a v => Checked cfg J s a v

/-! ## The history grows -/

/-- Time passes, documents are accepted and answers come in. -/
structure Extends (s s' : Service Token) : Prop where
  clock : s.clock ≤ s'.clock
  accepted : ∃ new, s'.accepted = s.accepted ++ new ∧ (new = [] → s'.cache.keys = s.cache.keys)
  confirmed : ∃ new, s'.confirmed = s.confirmed ++ new

variable {cfg J} {s s' s'' : Service Token}

theorem Extends.of_eq (hclock : s.clock ≤ s'.clock) (hdocs : s'.accepted = s.accepted)
    (hkeys : s'.cache.keys = s.cache.keys) (hconfirms : s'.confirmed = s.confirmed) :
    Extends s s' := by
  refine ⟨hclock, ⟨[], ?_, fun _ => hkeys⟩, [], ?_⟩
  · rw [hdocs, List.append_nil]
  · rw [hconfirms, List.append_nil]

theorem Extends.refl (s : Service Token) : Extends s s := .of_eq (le_refl _) rfl rfl rfl

theorem Extends.trans (h : Extends s s') (h' : Extends s' s'') : Extends s s'' := by
  obtain ⟨hclock, ⟨docs, hdocs, hkeys⟩, confirms, hconfirms⟩ := h
  obtain ⟨hclock', ⟨docs', hdocs', hkeys'⟩, confirms', hconfirms'⟩ := h'
  refine ⟨le_trans hclock hclock', ⟨docs ++ docs', ?_, ?_⟩, confirms ++ confirms', ?_⟩
  · rw [hdocs', hdocs, List.append_assoc]
  · intro hnil
    obtain ⟨h1, h2⟩ := List.append_eq_nil_iff.mp hnil
    exact (hkeys' h2).trans (hkeys h1)
  · rw [hconfirms', hconfirms, List.append_assoc]

theorem Extends.docs_le (h : Extends s s') : s.accepted.length ≤ s'.accepted.length := by
  obtain ⟨new, hnew, -⟩ := h.accepted
  rw [hnew, List.length_append]
  omega

theorem Extends.confirms_le (h : Extends s s') : s.confirmed.length ≤ s'.confirmed.length := by
  obtain ⟨new, hnew⟩ := h.confirmed
  rw [hnew, List.length_append]
  omega

theorem Extends.docAt (h : Extends s s') {n : ℕ} (hn : n ≤ s.accepted.length) :
    s'.docAt n = s.docAt n := by
  obtain ⟨new, hnew, -⟩ := h.accepted
  unfold Service.docAt
  rw [hnew, List.take_append_of_le_length hn]

theorem Service.Supplies.extends {a : Attempt Token} {kid : String} {r : Reading}
    (hr : s.Supplies cfg J a kid r) (h : Extends s s') : s'.Supplies cfg J a kid r := by
  obtain ⟨d, keys, hd, hkeys, hkey, hn, hage⟩ := hr
  exact ⟨d, keys, (h.docAt hn).trans hd, hkeys, hkey, le_trans hn h.docs_le, hage⟩

theorem Begun.extends {a : Attempt Token} {kid : String} (hb : Begun J s a kid)
    (h : Extends s s') : Begun J s' a kid :=
  ⟨hb.header, le_trans hb.began h.clock, le_trans hb.docs h.docs_le,
    le_trans hb.confirms h.confirms_le⟩

theorem Checked.extends {a : Attempt Token} {v : Verified} (hc : Checked cfg J s a v)
    (h : Extends s s') : Checked cfg J s' a v :=
  ⟨hc.begun.extends h, hc.key.extends h, le_trans hc.read h.clock, hc.decoded, hc.bound⟩

/-- What a call has found stays true while it awaits. -/
theorem awaits_extends {t : Task Token} (ht : Awaits cfg J s t) (h : Extends s s') :
    Awaits cfg J s' t := by
  cases t with
  | idle => trivial
  | entered token => trivial
  | lockStale a kid => exact Begun.extends ht h
  | fetchStale a kid => exact Begun.extends ht h
  | fetchUnknown a kid => exact Begun.extends ht h
  | statusCheck a v => exact Checked.extends ht h
  | lockUnknown a kid missed =>
      obtain ⟨hb, hle, hlen, hnone⟩ := ht
      refine ⟨hb.extends h, hle, le_trans hlen h.docs_le, ?_⟩
      intro hm
      -- no document was accepted since, so the keys are the same
      obtain ⟨new, hnew, hkeys⟩ := h.accepted
      have hlength := congrArg List.length hnew
      rw [List.length_append] at hlength
      have hnil : new = [] := List.eq_nil_of_length_eq_zero (by omega)
      rw [hkeys hnil]
      exact hnone (by omega)

theorem Attested.extends {e : Ended Token} {p : Principal} {v : Verified}
    (ha : Attested cfg J s e p v) (h : Extends s s') : Attested cfg J s' e p v := by
  refine ⟨ha.header, ⟨ha.key.1.extends h, ha.key.2⟩, ha.decoded, ha.bound,
    ha.principal, ?_⟩
  obtain ⟨n, c, hc, hrest⟩ := ha.confirmed
  obtain ⟨new, hnew⟩ := h.confirmed
  refine ⟨n, c, ?_, hrest⟩
  obtain ⟨hlt, -⟩ := List.getElem?_eq_some_iff.mp hc
  rw [hnew, List.getElem?_append_left hlt]
  exact hc

/-! ## What each part of a step keeps -/

/-- The invariant of the service, and what holds of the call that has stepped. -/
def Kept (cfg : Settings) (J : Jwt Token) (r : Service Token × Task Token) : Prop :=
  Coherent cfg J r.1 ∧ Awaits cfg J r.1 r.2

/-- A refusal attests nothing. -/
theorem Coherent.refuse (h : Coherent cfg J s) (a : Attempt Token) (reason : Refusal) :
    Kept cfg J (s.refuse a reason) := by
  refine ⟨⟨h.latest, h.status, ?_⟩, trivial⟩
  intro e he p v ho
  rcases List.mem_cons.mp he with rfl | he
  · cases ho
  · exact (h.ended e he p v ho).extends (.of_eq (le_refl _) rfl rfl rfl)

theorem binding_eq_some {claims : Dict} {subject : String} {version : ℤ}
    (h : binding cfg claims = some (subject, version)) :
    Dict.str claims "aud" = some cfg.audience ∧
      Dict.str claims "azp" = some cfg.authorizedParty ∧
      Dict.str claims "sub" = some subject ∧ Dict.int claims "authz_version" = some version := by
  unfold binding at h
  split at h
  · next hb =>
      split at h
      · next sub ver hsub hver =>
          cases h
          exact ⟨hb.1, hb.2, hsub, hver⟩
      · cases h
  · cases h

/-- A `Principal` is returned for a verified token with a true answer. -/
theorem Coherent.conclude (hJ : J.ChecksIssuer) (h : Coherent cfg J s) {a : Attempt Token}
    {v : Verified} (hc : Checked cfg J s a v) {n : ℕ} {c : Confirmed}
    (hn : s.confirmed[n]? = some c) (hsub : c.subject = v.subject)
    (hver : c.version = v.version)
    (hage : a.confirms ≤ n ∨ v.consulted - c.time < cfg.statusTtl) :
    Kept cfg J (s.conclude J a v) := by
  unfold Service.conclude
  split
  · exact h.refuse a .missingScope
  · refine ⟨⟨h.latest, h.status, ?_⟩, trivial⟩
    have hext : ∀ outcome, Extends s (s.finish a outcome).1 := fun _ =>
      .of_eq (le_refl _) rfl rfl rfl
    intro e he p v' ho
    rcases List.mem_cons.mp he with rfl | he
    · cases ho
      obtain ⟨haud, hazp, hsubject, hversion⟩ := binding_eq_some hc.bound
      obtain ⟨wall, hdecoded⟩ := hc.decoded
      obtain ⟨hlt, -⟩ := List.getElem?_eq_some_iff.mp hn
      refine ⟨hc.begun.header, ⟨hc.key.extends (hext _), hc.read⟩, ⟨wall, hdecoded⟩,
        ⟨hJ _ _ _ _ _ _ hdecoded, Dict.lookup_of_str haud, Dict.lookup_of_str hazp⟩,
        ⟨Dict.lookup_of_str hsubject, hversion, rfl, rfl⟩, n, c, hn, hlt, hsub, hver, hage⟩
    · exact (h.ended e he p v' ho).extends (hext _)

/-- From `jwt.decode` on, with a key the service supplies. -/
theorem Coherent.verify (hJ : J.ChecksIssuer) (h : Coherent cfg J s) {a : Attempt Token}
    {kid : String} {key : PublicKey} (hb : Begun J s a kid)
    (hk : s.Supplies cfg J a kid ⟨key, s.accepted.length, s.clock⟩) (wall : Time) :
    Kept cfg J (s.verify cfg J a kid key wall) := by
  unfold Service.verify
  split
  · exact h.refuse a _
  · next claims hdecode =>
      split
      · exact h.refuse a _
      · next subject version hbinding =>
          have hc : Checked cfg J s a ⟨kid, ⟨key, s.accepted.length, s.clock⟩, claims, subject,
              version, s.clock, s.turns⟩ := ⟨hb, hk, le_refl _, ⟨wall, hdecode⟩, hbinding⟩
          simp only
          split
          · next hvouch =>
              unfold Cache.vouches at hvouch
              split at hvouch
              · cases hvouch
              · next deadline v hstatus =>
                  simp only [Bool.and_eq_true, decide_eq_true_eq] at hvouch
                  obtain ⟨c, hmem, hsub, hver, hdeadline⟩ := h.status _ _ _ hstatus
                  obtain ⟨n, hn⟩ := List.mem_iff_getElem?.mp hmem
                  refine h.conclude hJ hc hn hsub (hver.trans hvouch.2) (Or.inr ?_)
                  show s.clock - c.time < cfg.statusTtl
                  linarith [hvouch.1]
          · exact ⟨h, hc⟩

/-- A key of the cache is one the service supplies, to a call that may use it. -/
theorem Coherent.supplies (h : Coherent cfg J s) {a : Attempt Token} {kid : String}
    {key : PublicKey} (hb : Begun J s a kid) (hkey : s.cache.keys.lookup kid = some key)
    (hfresh : a.docs < s.accepted.length ∨ s.clock < s.cache.jwksUntil ∨
      s.cache.bridges s.clock kid = true) :
    s.Supplies cfg J a kid ⟨key, s.accepted.length, s.clock⟩ := by
  rcases h.latest with hnil | ⟨d, hd, hkeys, htime, huntil, hstale⟩
  · rw [hnil] at hkey
    cases hkey
  · refine ⟨d, _, hd, hkeys, hkey, le_refl _, ?_⟩
    have hnonneg := cfg.stale_nonneg
    rcases hfresh with hdocs | hfresh | hbridge
    · exact Or.inl hdocs
    · refine Or.inr ⟨hb.began, htime, ?_⟩
      show s.clock - d.time < cfg.jwksTtl + cfg.jwksStaleTtl
      linarith
    · refine Or.inr ⟨hb.began, htime, ?_⟩
      unfold Cache.bridges at hbridge
      simp only [Bool.and_eq_true, decide_eq_true_eq] at hbridge
      show s.clock - d.time < cfg.jwksTtl + cfg.jwksStaleTtl
      linarith [hbridge.2]

/-- The keys are read while they may be used. -/
theorem Coherent.select (hJ : J.ChecksIssuer) (h : Coherent cfg J s) {a : Attempt Token}
    {kid : String} (hb : Begun J s a kid)
    (hfresh : a.docs < s.accepted.length ∨ s.clock < s.cache.jwksUntil ∨
      s.cache.bridges s.clock kid = true) (wall : Time) :
    Kept cfg J (s.select cfg J a kid wall) := by
  unfold Service.select
  split
  · next key hkey => exact h.verify hJ hb (h.supplies hb hkey hfresh) wall
  · next hnone =>
      split
      · exact h.refuse a _
      · exact ⟨h, hb, hb.docs, le_refl _, fun _ => hnone⟩

theorem safeRefresh_eq_ok {fetched : Fetched} {document : Json} {keys : KeySet}
    (h : safeRefresh J fetched = .ok (document, keys)) : fetched = .document document := by
  unfold safeRefresh at h
  split at h
  · cases h
  · cases h
  · split at h
    · split at h
      · cases h
      · cases h
      · cases h
        rfl
    · cases h
  · cases h

theorem extends_accept (cfg : Settings) (s : Service Token) (document : Json) (keys : KeySet) :
    Extends s (s.accept cfg document keys) :=
  ⟨le_refl _, ⟨[⟨s.clock, document⟩], rfl, fun hnil => by cases hnil⟩, [],
    (List.append_nil _).symm⟩

/-- A document accepted now is new to every call that has begun. -/
theorem docs_lt_accept (cfg : Settings) {s : Service Token} {n : ℕ} (hn : n ≤ s.accepted.length)
    (document : Json) (keys : KeySet) : n < (s.accept cfg document keys).accepted.length := by
  simp only [Service.accept, List.length_append, List.length_singleton]
  exact Nat.lt_succ_of_le hn

/-- The accepted document is the one in force. -/
theorem Coherent.accept (h : Coherent cfg J s) {fetched : Fetched} {document : Json}
    {keys : KeySet} (hr : safeRefresh J fetched = .ok (document, keys)) :
    Coherent cfg J (s.accept cfg document keys) := by
  refine ⟨Or.inr ⟨⟨s.clock, document⟩, ?_, ?_, le_refl _, rfl, rfl⟩, h.status, ?_⟩
  · unfold Service.docAt
    rw [List.take_length]
    simp [Service.accept]
  · rw [safeRefresh_eq_ok hr] at hr
    exact hr
  · intro e he p v ho
    exact (h.ended e he p v ho).extends (extends_accept cfg s document keys)

/-- A change of the times that bound refreshing. -/
theorem Coherent.same (h : Coherent cfg J s) (negativeKids : String → Option Time)
    (unknownRefreshAfter refreshErrorUntil : Time) :
    Coherent cfg J
      { s with
        cache := { s.cache with negativeKids, unknownRefreshAfter, refreshErrorUntil } } := by
  refine ⟨h.latest, h.status, ?_⟩
  intro e he p v ho
  exact (h.ended e he p v ho).extends (.of_eq (le_refl _) rfl rfl rfl)

theorem extends_confirm (cfg : Settings) (s : Service Token) (v : Verified) :
    Extends s (s.confirm cfg v) :=
  ⟨le_refl _, ⟨[], (List.append_nil _).symm, fun _ => rfl⟩, _, rfl⟩

/-- A true answer is kept for its subject and version. -/
theorem Coherent.confirm (h : Coherent cfg J s) (v : Verified) :
    Coherent cfg J (s.confirm cfg v) := by
  refine ⟨h.latest, ?_, ?_⟩
  · intro subject deadline version hstatus
    rcases status_confirm hstatus with ⟨-, hstatus⟩ | ⟨rfl, rfl, rfl⟩
    · obtain ⟨c, hmem, hc⟩ := h.status subject deadline version hstatus
      exact ⟨c, List.mem_append_left _ hmem, hc⟩
    · exact ⟨_, List.mem_append_right _ List.mem_cons_self, rfl, rfl, rfl⟩
  · intro e he p v' ho
    exact (h.ended e he p v' ho).extends (extends_confirm cfg s v)

theorem extends_tick (s : Service Token) (now : Time) : Extends s (s.tick now) :=
  .of_eq (le_max_left _ _) rfl rfl rfl

/-- Time passes. -/
theorem Coherent.tick (h : Coherent cfg J s) (now : Time) : Coherent cfg J (s.tick now) := by
  refine ⟨?_, h.status, ?_⟩
  · rcases h.latest with hnil | ⟨d, hd, hkeys, htime, hrest⟩
    · exact Or.inl hnil
    · exact Or.inr ⟨d, hd, hkeys, le_trans htime (le_max_left _ _), hrest⟩
  · intro e he p v ho
    exact (h.ended e he p v ho).extends (extends_tick s now)

/-! ## One step -/

/-- A call keeps the invariant and what holds of itself. -/
theorem advance_keeps (hJ : J.ChecksIssuer) (h : Coherent cfg J s) {t : Task Token}
    (ht : Awaits cfg J s t) (i : Input) : Kept cfg J (s.advance cfg J i t) := by
  have ha := advance_cases cfg J i s t
  generalize s.advance cfg J i t = r at ha ⊢
  have hbegun : ∀ token header kid, J.getUnverifiedHeader token = some header →
      Dict.str header "alg" = some "RS256" → Dict.str header "kid" = some kid →
        Begun J s (s.attempt token) kid := by
    intro token header kid hheader halg hkid
    exact ⟨⟨header, hheader, Dict.lookup_of_str halg, Dict.lookup_of_str hkid⟩,
      le_refl _, le_refl _, le_refl _⟩
  cases ha with
  | idle => exact ⟨h, trivial⟩
  | malformed | cooling | rejected | negative | coolingUnknown | rejectedUnknown | denied =>
      exact h.refuse _ _
  | expired token header kid hheader halg hkid huntil =>
      exact ⟨h, hbegun token header kid hheader halg hkid⟩
  | fresh token header kid hheader halg hkid huntil =>
      exact h.select hJ (hbegun token header kid hheader halg hkid) (Or.inr (Or.inl huntil)) i.wall
  | refreshed a kid huntil => exact h.select hJ ht (Or.inr (Or.inl huntil)) i.wall
  | bridged a kid hbridges herror => exact h.select hJ ht (Or.inr (Or.inr hbridges)) i.wall
  | expires a kid huntil herror => exact ⟨h, ht⟩
  | accepted a kid document keys hsafe =>
      have hb := Begun.extends ht (extends_accept cfg s document keys)
      have hnew := docs_lt_accept cfg ht.docs document keys
      exact (h.accept hsafe).select hJ hb (Or.inl hnew) i.wall
  | outlasted a kid hsafe hbridges =>
      have hcool := h.same s.cache.negativeKids s.cache.unknownRefreshAfter
        (s.clock + cfg.refreshCooldown)
      exact hcool.select hJ ⟨ht.header, ht.began, ht.docs, ht.confirms⟩
        (Or.inr (Or.inr hbridges)) i.wall
  | cooled a kid hsafe hbridges => exact (h.same _ _ _).refuse _ _
  | appeared a kid missed key hkey =>
      obtain ⟨hb, hle, hlen, hnone⟩ := ht
      -- the kid was missing then, so a document has been accepted since
      have hne : missed ≠ s.accepted.length := by
        intro he
        rw [hnone he] at hkey
        cases hkey
      have hnew : a.docs < s.accepted.length := by omega
      exact h.verify hJ hb (h.supplies hb hkey (Or.inl hnew)) i.wall
  | forces a kid missed hmissing hunknown =>
      obtain ⟨hb, -, -, -⟩ := ht
      exact ⟨h.same s.cache.negativeKids (s.pause cfg) s.cache.refreshErrorUntil,
        hb.header, hb.began, hb.docs, hb.confirms⟩
  | spared a kid missed hmissing =>
      exact (h.same _ s.cache.unknownRefreshAfter s.cache.refreshErrorUntil).refuse _ _
  | loaded a kid document keys key hsafe hkey =>
      have hb := Begun.extends ht (extends_accept cfg s document keys)
      have hacc : Coherent cfg J (s.accept cfg document keys) := h.accept hsafe
      have hnew := docs_lt_accept cfg ht.docs document keys
      exact hacc.verify hJ hb (hacc.supplies hb hkey (Or.inl hnew)) i.wall
  | missing a kid document keys hsafe hmissing =>
      exact (Coherent.same (h.accept hsafe) _ _ _).refuse _ _
  | cooledUnknown a kid hsafe =>
      exact (h.same s.cache.negativeKids s.cache.unknownRefreshAfter _).refuse _ _
  | confirmed a v hactive =>
      have hc := Checked.extends ht (extends_confirm cfg s v)
      refine (h.confirm v).conclude hJ hc (n := s.confirmed.length)
        (c := ⟨s.clock, v.subject, v.version⟩) ?_ rfl rfl (Or.inl ht.begun.confirms)
      simp [Service.confirm]

/-! ## What a step can do -/

/-- What a step does to the history and the status cache, unless it is a true answer: a call
    that returns a `Principal` has found a live entry, and one that goes on to ask has found
    none. `waits` tells whether the step may leave the call with the lock. -/
structure Quiet (waits : Bool) (s : Service Token) (r : Service Token × Task Token) : Prop where
  history : Extends s r.1
  inside : r.2.inside = true → waits = true
  status : r.1.cache.status = s.cache.status
  time : r.1.clock = s.clock ∧ r.1.turns = s.turns
  returned : ∀ e ∈ r.1.ended, e ∈ s.ended ∨ ∀ p v, e.outcome = .returned p v →
    v.consulted = s.clock ∧ v.turn = s.turns ∧ s.cache.vouches s.clock v.subject v.version = true
  asks : ∀ a v, r.2 = .statusCheck a v → v.consulted = s.clock ∧ v.turn = s.turns

variable {w : Bool}

theorem quiet_stay (s : Service Token) {t : Task Token} (hin : t.inside = true → w = true)
    (ht : ∀ a v, t ≠ .statusCheck a v) : Quiet w s (s, t) :=
  ⟨.refl s, hin, rfl, ⟨rfl, rfl⟩, fun _ he => Or.inl he, fun a v h => absurd h (ht a v)⟩

theorem quiet_refuse (s : Service Token) (a : Attempt Token) (reason : Refusal) :
    Quiet w s (s.refuse a reason) := by
  refine ⟨.of_eq (le_refl _) rfl rfl rfl, nofun, rfl, ⟨rfl, rfl⟩, ?_, nofun⟩
  intro e he
  rcases List.mem_cons.mp he with rfl | he
  · exact Or.inr nofun
  · exact Or.inl he

theorem quiet_verify (cfg : Settings) (J : Jwt Token) (s : Service Token) (a : Attempt Token)
    (kid : String) (key : PublicKey) (wall : Time) :
    Quiet w s (s.verify cfg J a kid key wall) := by
  unfold Service.verify
  split
  · exact quiet_refuse s a _
  · split
    · exact quiet_refuse s a _
    · simp only
      split
      · next hvouch =>
          unfold Service.conclude
          split
          · exact quiet_refuse s a _
          · refine ⟨.of_eq (le_refl _) rfl rfl rfl, nofun, rfl, ⟨rfl, rfl⟩, ?_, nofun⟩
            intro e he
            rcases List.mem_cons.mp he with rfl | he
            · refine Or.inr ?_
              intro p v ho
              cases ho
              exact ⟨rfl, rfl, hvouch⟩
            · exact Or.inl he
      · refine ⟨.refl s, nofun, rfl, ⟨rfl, rfl⟩, fun _ he => Or.inl he, ?_⟩
        intro a' v hv
        cases hv
        exact ⟨rfl, rfl⟩

theorem quiet_select (cfg : Settings) (J : Jwt Token) (s : Service Token) (a : Attempt Token)
    (kid : String) (wall : Time) : Quiet w s (s.select cfg J a kid wall) := by
  unfold Service.select
  split
  · exact quiet_verify cfg J s a kid _ wall
  · split
    · exact quiet_refuse s a _
    · exact quiet_stay s nofun nofun

/-- What a step does to the other fields before its end. -/
theorem Quiet.after {r : Service Token × Task Token} (hr : Quiet w s' r) (h : Extends s s')
    (hstatus : s'.cache.status = s.cache.status) (hclock : s'.clock = s.clock)
    (hturns : s'.turns = s.turns) (hended : s'.ended = s.ended) : Quiet w s r := by
  refine ⟨h.trans hr.history, hr.inside, hr.status.trans hstatus,
    ⟨hr.time.1.trans hclock, hr.time.2.trans hturns⟩, ?_, ?_⟩
  · intro e he
    have hret := hr.returned e he
    rw [hended, hclock, hturns] at hret
    refine hret.imp_right ?_
    intro hv p v ho
    obtain ⟨hc, ht, hvouch⟩ := hv p v ho
    refine ⟨hc, ht, ?_⟩
    unfold Cache.vouches at hvouch ⊢
    rw [hstatus] at hvouch
    exact hvouch
  · intro a v hv
    have hasks := hr.asks a v hv
    rw [hclock, hturns] at hasks
    exact hasks

theorem quiet_accept {document : Json} {keys : KeySet} {r : Service Token × Task Token}
    (hr : Quiet w (s.accept cfg document keys) r) : Quiet w s r :=
  hr.after (extends_accept cfg s document keys) rfl rfl rfl rfl

theorem quiet_same {negativeKids : String → Option Time}
    {unknownRefreshAfter refreshErrorUntil : Time} {r : Service Token × Task Token}
    (hr : Quiet w
      { s with cache := { s.cache with negativeKids, unknownRefreshAfter, refreshErrorUntil } } r) :
    Quiet w s r :=
  hr.after (.of_eq (le_refl _) rfl rfl rfl) rfl rfl rfl rfl

theorem quiet_forget (cfg : Settings) (s : Service Token) (a : Attempt Token) (kid : String) :
    Quiet w s (s.forget cfg a kid) := quiet_same (quiet_refuse _ a _)

/-- Every step but a true answer is quiet. -/
theorem quiet_advance (cfg : Settings) (J : Jwt Token) (i : Input) (s : Service Token)
    {t : Task Token} (ht : ∀ a v, t = .statusCheck a v → i.active ≠ some true) :
    Quiet t.waits s (s.advance cfg J i t) := by
  have ha := advance_cases cfg J i s t
  generalize s.advance cfg J i t = r at ha ⊢
  cases ha with
  | idle | expired => exact quiet_stay s nofun nofun
  | malformed | cooling | rejected | negative | coolingUnknown | rejectedUnknown | denied =>
      exact quiet_refuse s _ _
  | fresh | refreshed | bridged => exact quiet_select cfg J s _ _ _
  | expires => exact quiet_stay s (fun _ => rfl) nofun
  | accepted a kid => exact quiet_accept (quiet_select cfg J _ a kid _)
  | outlasted a kid => exact quiet_same (quiet_select cfg J (s.coolDown cfg) a kid _)
  | cooled a | cooledUnknown a => exact quiet_same (quiet_refuse (s.coolDown cfg) a _)
  | appeared a kid missed key => exact quiet_verify cfg J s a kid key _
  | forces => exact quiet_same (quiet_stay _ (fun _ => rfl) nofun)
  | spared a kid => exact quiet_forget cfg s a kid
  | loaded a kid document keys key => exact quiet_accept (quiet_verify cfg J _ a kid key _)
  | missing a kid => exact quiet_accept (quiet_forget cfg _ a kid)
  | confirmed a v hactive => exact absurd hactive (ht a v rfl)

/-- A true answer is kept and its call returns. -/
theorem advance_confirm (cfg : Settings) (J : Jwt Token) {i : Input} (hi : i.active = some true)
    (s : Service Token) (a : Attempt Token) (v : Verified) :
    s.advance cfg J i (.statusCheck a v) = (s.confirm cfg v).conclude J a v := by
  simp only [Service.advance, hi]

theorem conclude_history (J : Jwt Token) (s : Service Token) (a : Attempt Token) (v : Verified) :
    Extends s (s.conclude J a v).1 ∧ (s.conclude J a v).2 = .idle := by
  unfold Service.conclude
  split <;> exact ⟨.of_eq (le_refl _) rfl rfl rfl, rfl⟩

/-- A step only adds to the history; it takes the lock only where it waits for it. -/
theorem advance_history (cfg : Settings) (J : Jwt Token) (i : Input) (s : Service Token)
    (t : Task Token) :
    Extends s (s.advance cfg J i t).1 ∧
      ((s.advance cfg J i t).2.inside = true → t.waits = true) := by
  by_cases ht : ∀ a v, t = .statusCheck a v → i.active ≠ some true
  · have hq := quiet_advance cfg J i s ht
    exact ⟨hq.history, hq.inside⟩
  · simp only [not_forall, not_not] at ht
    obtain ⟨a, v, rfl, hactive⟩ := ht
    obtain ⟨hext, hidle⟩ := conclude_history J (s.confirm cfg v) a v
    rw [advance_confirm cfg J hactive, hidle]
    exact ⟨(extends_confirm cfg s v).trans hext, nofun⟩

/-! ## Runs -/

theorem verifier_free (cfg : Settings) (J : Jwt Token) :
    (verifier cfg J).free (verifier cfg J).idle = true ∧
      ∀ t, (verifier cfg J).free t = true → (verifier cfg J).inside t = false := by
  refine ⟨rfl, ?_⟩
  intro t ht
  cases t with
  | idle => rfl
  | _ => cases ht

theorem verifier_enters (cfg : Settings) (J : Jwt Token) (p : ℕ) (i : Input)
    (s : Service Token) (t : Task Token)
    (hin : (verifier cfg J).inside ((verifier cfg J).step p i s t).2 = true) :
    (verifier cfg J).inside t = true ∨ (verifier cfg J).waits t = true :=
  Or.inr ((advance_history cfg J i (s.tick i.now) t).2 hin)

/-- An invariant of the service that needs nothing of its calls. -/
theorem service_keeps (cfg : Settings) (J : Jwt Token) {I : Service Token → Prop}
    (htick : ∀ s now, I s → I (s.tick now))
    (hadvance : ∀ i s t, I s → I (s.advance cfg J i t).1) :
    (verifier cfg J).Keeps I (fun _ _ _ => True) fun _ _ => True where
  idle := fun _ _ => trivial
  free := verifier_free cfg J
  begins := fun _ _ _ _ hinv => ⟨hinv, trivial, rfl⟩
  begins_others := fun _ _ _ _ _ _ _ _ _ => trivial
  enters := verifier_enters cfg J
  goes := fun _ _ i _ hinv _ => ⟨hadvance i _ _ (htick _ i.now hinv), trivial⟩
  goes_others := fun _ _ _ _ _ _ _ _ _ _ _ => trivial

theorem verifier_keeps (hJ : J.ChecksIssuer) :
    (verifier cfg J).Keeps (Coherent cfg J) (fun _ => Awaits cfg J) fun _ _ => True where
  idle := fun _ _ => trivial
  free := verifier_free cfg J
  begins := fun _ _ _ _ hinv => ⟨hinv, trivial, rfl⟩
  begins_others := fun _ _ _ _ _ _ _ _ hown => hown
  enters := verifier_enters cfg J
  goes := fun h _ i _ hinv hown =>
    advance_keeps hJ (hinv.tick i.now) (awaits_extends hown (extends_tick h.shared i.now)) i
  goes_others := fun h p i _ _ _ _ _ _ hown _ =>
    awaits_extends hown
      ((extends_tick h.shared i.now).trans (advance_history cfg J i _ (h.task p)).1)

/-- Whatever interleaves with it, a call that returns a `Principal` is attested. -/
theorem principal_attested (cfg : Settings) (J : Jwt Token) (hJ : J.ChecksIssuer) (clock : Time)
    (events : List (Signal ℕ Token Input)) :
    let s := (run (verifier cfg J).signal
      ((verifier cfg J).start (.start Token clock)) events).shared
    ∀ e ∈ s.ended, ∀ p v, e.outcome = .returned p v → Attested cfg J s e p v := by
  have h0 : Coherent cfg J (.start Token clock) := ⟨Or.inl rfl, nofun, nofun⟩
  exact ((verifier_keeps hJ).always h0 events).shared.ended

/-! ## A sample run -/

/-- A token as PyJWT sees it: its header, the key that signed it and its claims. -/
structure PlainToken where
  header : Dict
  signer : PublicKey
  claims : Dict

def plainKey : PublicKey := ⟨3233, 17⟩

/-- `jwt.decode` on plain tokens, and `from_jwk` on the JWK of `plainKey`. -/
def plainJwt : Jwt PlainToken where
  getUnverifiedHeader t := some t.header
  decode key issuer audience wall t :=
    if t.signer = key ∧ Dict.str t.claims "iss" = some issuer ∧
        Dict.str t.claims "aud" = some audience ∧ wall < ((Dict.int t.claims "exp").getD 0 : ℤ) then
      some t.claims
    else none
  fromJwk d :=
    if Dict.str d "n" = some (b64url 3233) ∧ Dict.str d "e" = some (b64url 17) then
      some (some plainKey)
    else none
  repr _ := ""

/-- What is decoded are the claims of the token, with the issuer that was asked for. -/
theorem plainJwt_decoded {key : PublicKey} {issuer audience : String} {wall : Time}
    {token : PlainToken} {claims : Dict}
    (h : plainJwt.decode key issuer audience wall token = some claims) :
    claims = token.claims ∧ Dict.str claims "iss" = some issuer := by
  simp only [plainJwt] at h
  split at h
  · next hc =>
      cases h
      exact ⟨rfl, hc.2.1⟩
  · cases h

theorem plainJwt_issuer : plainJwt.ChecksIssuer :=
  fun _ _ _ _ _ _ h => Dict.lookup_of_str (plainJwt_decoded h).2

/-- The defaults of the constructor, with the values of the services. -/
def labSettings : Settings where
  issuer := Sso.issuer
  audience := Sso.audience
  authorizedParty := "temis-web"
  jwksTtl := 300
  jwksStaleTtl := 600
  statusTtl := 30
  refreshCooldown := 1
  stale_nonneg := by norm_num

/-- `jwt.encode` of the claims `issue_access` signs, under `plainKey`. -/
def plainToken (t : AccessToken) : PlainToken where
  header := [("alg", .str "RS256"), ("kid", .str t.kid)]
  signer := plainKey
  claims := [("iss", .str t.claims.iss), ("aud", .str t.claims.aud), ("sub", .str t.claims.sub),
    ("azp", .str t.claims.azp), ("scope", .str t.claims.scope),
    ("https://temis.lab/roles", .list (t.claims.roles.map .str)),
    ("authz_version", .int t.claims.authzVersion), ("auth_time", .int t.claims.authTime),
    ("iat", .int t.claims.iat), ("exp", .int t.claims.exp)]

/-- The JWKS document that lists `plainKey` as `k`. -/
def plainDocument : Json :=
  .dict [("keys", .list [.dict [("kty", .str "RSA"), ("alg", .str "RS256"), ("kid", .str "k"),
    ("n", .str (b64url 3233)), ("e", .str (b64url 17))]])]

/-- A step at a time, with what it awaits. -/
def at_ (now : Time) (fetched : Fetched) (active : Option Bool) : Input :=
  ⟨now, now, fetched, active⟩

/-- Two calls; the second waits for the refresh of the first, and its status check fails. -/
def twoCalls : List (Signal ℕ PlainToken Input) :=
  let idle := at_ 1 .failed none
  let token := fun subject => plainToken ⟨"k", bundleClaims subject 7 ["user"] Sso.audience 1⟩
  [.call 0 (token "user-1"), .go 0 idle, .go 0 idle, .call 1 (token "user-2"),
    .go 1 idle, .go 1 idle, .go 0 (at_ 2 (.document plainDocument) none), .go 1 idle,
    .go 0 (at_ 3 .failed (some true)), .go 1 idle]

/-- The first call returns its subject and is attested. -/
theorem first_call_attested :
    let s := (run (verifier labSettings plainJwt).signal
      ((verifier labSettings plainJwt).start (.start PlainToken 0)) twoCalls).shared
    s.ended.map (fun e => e.outcome.subject) = [none, some "user-1"] ∧
      ∀ e ∈ s.ended, ∀ p v, e.outcome = .returned p v →
        Attested labSettings plainJwt s e p v :=
  ⟨by decide +kernel, principal_attested labSettings plainJwt plainJwt_issuer 0 twoCalls⟩

end TemisLab.Resource
