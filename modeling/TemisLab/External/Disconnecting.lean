/-
  `kakao_revoke` and `naver_revoke` (`api/kakao_oauth.py`, `api/naver_oauth.py`) with the call to
  the provider: what a request leaves in the table of links, and which account of the provider it
  has disconnected.

  The link is the one found for the user, the account is that of the access token in the request;
  nothing compares the two. `disconnects` is the provider: the account a call disconnects. What the
  call answers, whether the answer arrives, and whether the flush or the commit fails are
  `Circumstances`.

  * `revokeRoute_on`: what a request answers and leaves.
  * `revoke_iff`: when both sides agree.
-/
import TemisLab.Lib.Raising
import TemisLab.Sso.Endpoints

namespace TemisLab.External.Disconnecting

open TemisLab.Lib TemisLab.Sso

/-- A request to a provider. -/
structure Post where
  url : String
  headers : List (String × String)
  data : List (String × String)
  deriving DecidableEq, Repr

/-- `KakaoAdapter.unlink`. -/
def kakaoUnlink (accessToken : String) : Post where
  url := "https://kapi.kakao.com/v1/user/unlink"
  headers := [("Authorization", "Bearer " ++ accessToken)]
  data := []

/-- `NaverAdapter.revoke`. -/
def naverRevocation (clientId clientSecret accessToken : String) : Post where
  url := "https://nid.naver.com/oauth2.0/revoke"
  headers := []
  data :=
    [("client_id", clientId), ("client_secret", clientSecret), ("token", accessToken),
      ("token_type_hint", "access_token")]

/-- What a request gets back: a response, or an error of the transport. -/
inductive Reply where
  | status (code : ℕ)
  | lost
  deriving DecidableEq, Repr

/-- What the request runs into. -/
structure Circumstances where
  reply : Reply
  dbFails : Bool
  deriving DecidableEq, Repr

/-- What an endpoint raises: an `HTTPException`, or an error that is answered with 500. -/
inductive Raised where
  | http (status : ℕ) (detail : String)
  | escaped
  deriving DecidableEq, Repr

/-- The committed tables, and the accounts that calls have disconnected. -/
structure World where
  db : Db
  disconnected : List (String × String)
  deriving DecidableEq

/-- The call disconnects an account, if the token is one's. -/
def World.disconnect (w : World) (provider : String) (account : Option String) : World :=
  { w with disconnected := (account.map (provider, ·)).toList ++ w.disconnected }

/-- `_account_operation` and `revoke`: the call, `raise_for_status`, and whether it is 200. -/
def accountOperation (disconnects : Post → Option String) (provider : String) (post : Post)
    (reply : Reply) : Raising Raised World Bool := do
  modify fun w => w.disconnect provider (disconnects post)
  match reply with
  | .lost => throw .escaped
  | .status code => if 200 ≤ code ∧ code < 300 then return code = 200 else throw .escaped

/-- `session.delete` of the link, as committed. -/
def deleteLink (db : Db) (link : ExternalIdentityLink) : Db :=
  { db with
    links := db.links.delete fun l => l.provider = link.provider && l.subject = link.subject }

/-- The body of `kakao_revoke` and `naver_revoke`. An exception rolls the session back. -/
def revokeRoute (disconnects : Post → Option String) (provider name : String) (post : Post)
    (userId : String) (c : Circumstances) : Raising Raised World Unit := do
  let w ← get
  let some link := linkOf w.db provider userId
    | throw (.http 404 ("Linked " ++ name ++ " account identity not found for this user."))
  let success ← accountOperation disconnects provider post c.reply
  if !success then
    throw (.http 502
      ("Fail-closed: " ++ name ++ " identity provider rejected the revocation request."))
  if c.dbFails then
    throw .escaped
  modify fun w => { w with db := deleteLink w.db link }

/-- `kakao_revoke`. -/
def kakaoRevoke (disconnects : Post → Option String) (userId accessToken : String)
    (c : Circumstances) : Raising Raised World Unit :=
  revokeRoute disconnects "kakao" "Kakao" (kakaoUnlink accessToken) userId c

/-- `naver_revoke`. -/
def naverRevoke (disconnects : Post → Option String) (clientId clientSecret : String)
    (userId accessToken : String) (c : Circumstances) : Raising Raised World Unit :=
  revokeRoute disconnects "naver" "Naver" (naverRevocation clientId clientSecret accessToken)
    userId c

/-! ## What a request leaves -/

/-- The response is 200, and the link is deleted. -/
def Circumstances.Good (c : Circumstances) : Prop := c.reply = .status 200 ∧ c.dbFails = false

instance (c : Circumstances) : Decidable c.Good :=
  inferInstanceAs (Decidable (_ ∧ _))

variable (disconnects : Post → Option String) (provider name : String) (post : Post)
  (userId : String) (c : Circumstances) (db : Db)

/-- Without a link there is no call. -/
theorem revokeRoute_none (h : linkOf db provider userId = none) :
    (revokeRoute disconnects provider name post userId c).on ⟨db, []⟩ =
      (.error (.http 404 ("Linked " ++ name ++ " account identity not found for this user.")),
        ⟨db, []⟩) := by
  unfold revokeRoute
  simp only [Raising.on_bind, Raising.on_get]
  rw [h]
  rfl

/-- With one the call is made; then the link goes, or the request raises. -/
theorem revokeRoute_on {link : ExternalIdentityLink} (h : linkOf db provider userId = some link) :
    ∃ raised, (revokeRoute disconnects provider name post userId c).on ⟨db, []⟩ =
      if c.Good then
        (.ok (), ⟨deleteLink db link, ((disconnects post).map (provider, ·)).toList⟩)
      else (.error raised, ⟨db, ((disconnects post).map (provider, ·)).toList⟩) := by
  obtain ⟨reply, dbFails⟩ := c
  unfold revokeRoute accountOperation
  simp only [Raising.on_bind, Raising.on_get]
  rw [h]
  cases reply with
  | lost =>
      refine ⟨.escaped, ?_⟩
      have hbad : ¬ Circumstances.Good ⟨.lost, dbFails⟩ := fun hgood => by cases hgood.1
      rw [if_neg hbad]
      simp [Raising.on_bind, World.disconnect]
  | status code =>
      by_cases hcode : code = 200
      · subst hcode
        cases dbFails with
        | true =>
            refine ⟨.escaped, ?_⟩
            have hbad : ¬ Circumstances.Good ⟨.status 200, true⟩ := fun hgood => by cases hgood.2
            rw [if_neg hbad]
            simp [Raising.on_bind, World.disconnect]
        | false =>
            refine ⟨.escaped, ?_⟩
            have hgood : Circumstances.Good ⟨.status 200, false⟩ := ⟨rfl, rfl⟩
            rw [if_pos hgood]
            simp [Raising.on_bind, World.disconnect]
      · have hbad : ¬ Circumstances.Good ⟨.status code, dbFails⟩ := by
          rintro ⟨hreply, -⟩
          exact hcode (Reply.status.inj hreply)
        by_cases hok : 200 ≤ code ∧ code < 300
        · refine ⟨.http 502
            ("Fail-closed: " ++ name ++ " identity provider rejected the revocation request."), ?_⟩
          rw [if_neg hbad]
          simp [Raising.on_bind, World.disconnect, hcode, hok]
        · refine ⟨.escaped, ?_⟩
          rw [if_neg hbad]
          simp [Raising.on_bind, World.disconnect, hok]

/-! ## Both sides -/

/-- A 204 has removed exactly one link, of this user, and disconnected its account; an error has
    removed none, and disconnected no account but one linked to the user. -/
def BothSides : Except Raised Unit × World → Prop
  | (.ok _, w) =>
      ∃ link ∈ db.links.rows, link.provider = provider ∧ link.userId = userId ∧
        w.db.links.rows = db.links.rows.filter (fun l => decide (l ≠ link)) ∧
        w.disconnected = [(provider, link.subject)]
  | (.error _, w) =>
      w.db.links = db.links ∧ ∀ account ∈ w.disconnected, ∃ link ∈ db.links.rows,
        (link.provider, link.subject) = account ∧ link.userId = userId

/-- The access token is of the account whose link is found; where the request then raises, of an
    account linked to the user, if of any. -/
def TokenFits : Prop :=
  ∀ link, linkOf db provider userId = some link →
    if c.Good then disconnects post = some link.subject
    else ∀ subject, disconnects post = some subject → ∃ l ∈ db.links.rows,
      (l.provider, l.subject) = (provider, subject) ∧ l.userId = userId

/-- The link that is found is one of the user's. -/
theorem linkOf_eq_some {db : Db} {provider userId : String} {link : ExternalIdentityLink}
    (h : linkOf db provider userId = some link) :
    link ∈ db.links.rows ∧ link.provider = provider ∧ link.userId = userId := by
  have hmem := List.mem_of_mem_head? h
  obtain ⟨hrow, hp⟩ := Table.mem_select.mp hmem
  rw [Bool.and_eq_true, decide_eq_true_eq, decide_eq_true_eq] at hp
  exact ⟨hrow, hp⟩

/-- The link is deleted, and nothing else. -/
theorem deleteLink_rows {db : Db} {link : ExternalIdentityLink} (h : link ∈ db.links.rows) :
    (deleteLink db link).links.rows = db.links.rows.filter fun l => decide (l ≠ link) := by
  refine List.filter_congr ?_
  intro l hl
  by_cases he : l = link
  · simp [he]
  · have hkey : ¬ (l.provider = link.provider ∧ l.subject = link.subject) := by
      rintro ⟨hp, hs⟩
      have hsame : Keyed.key l = Keyed.key link := Prod.ext hp hs
      exact he (List.inj_on_of_nodup_map db.links.nodup hl h hsame)
    simp [he, not_and_or.mp hkey]

/-- A row that is gone is the one that was taken out. -/
theorem eq_of_filter_ne {α : Type*} [DecidableEq α] {rows : List α} {a b : α} (ha : a ∈ rows)
    (h : rows.filter (fun l => decide (l ≠ a)) = rows.filter (fun l => decide (l ≠ b))) :
    a = b := by
  by_contra hne
  have hmem : a ∈ rows.filter fun l => decide (l ≠ b) :=
    List.mem_filter.mpr ⟨ha, decide_eq_true hne⟩
  rw [← h] at hmem
  have hno := (List.mem_filter.mp hmem).2
  rw [decide_eq_true_eq] at hno
  exact hno rfl

theorem bothSides_iff :
    BothSides provider userId db
        ((revokeRoute disconnects provider name post userId c).on ⟨db, []⟩) ↔
      TokenFits disconnects provider post userId c db := by
  unfold TokenFits
  cases hlink : linkOf db provider userId with
  | none =>
      rw [revokeRoute_none _ _ _ _ _ _ _ hlink]
      constructor
      · intro _ link hno
        cases hno
      · intro _
        refine ⟨rfl, fun account hno => ?_⟩
        cases hno
  | some link =>
      obtain ⟨hrow, hprovider, huser⟩ := linkOf_eq_some hlink
      obtain ⟨raised, hr⟩ := revokeRoute_on disconnects provider name post userId c db hlink
      rw [hr]
      by_cases hgood : c.Good
      · rw [if_pos hgood]
        constructor
        · rintro ⟨link', hrow', -, -, hrows, haccount⟩ link'' he
          cases he
          rw [if_pos hgood]
          -- the link the table lost is the one that was found
          have hsame : link' = link := by
            rw [deleteLink_rows hrow] at hrows
            exact eq_of_filter_ne hrow' hrows.symm
          subst hsame
          cases ha : disconnects post with
          | none =>
              rw [ha] at haccount
              cases haccount
          | some subject =>
              rw [ha] at haccount
              cases haccount
              rfl
        · intro h
          have haccount := h link rfl
          rw [if_pos hgood] at haccount
          refine ⟨link, hrow, hprovider, huser, deleteLink_rows hrow, ?_⟩
          rw [haccount]
          rfl
      · rw [if_neg hgood]
        constructor
        · rintro ⟨-, haccounts⟩ link' _
          rw [if_neg hgood]
          intro subject hsubject
          refine haccounts (provider, subject) ?_
          rw [hsubject]
          exact List.mem_singleton_self _
        · intro h
          have haccount := h link rfl
          rw [if_neg hgood] at haccount
          refine ⟨rfl, fun account hmem => ?_⟩
          cases ha : disconnects post with
          | none =>
              rw [ha] at hmem
              cases hmem
          | some subject =>
              rw [ha] at hmem
              obtain rfl := List.mem_singleton.mp hmem
              exact haccount subject ha

/-- Each of the two requests leaves both sides in agreement exactly if the access token fits the
    link that it finds. -/
theorem revoke_iff (db : Db) (userId accessToken clientId clientSecret : String)
    (disconnects : Post → Option String) (c : Circumstances) :
    (BothSides "kakao" userId db
        ((kakaoRevoke disconnects userId accessToken c).on ⟨db, []⟩) ↔
      TokenFits disconnects "kakao" (kakaoUnlink accessToken) userId c db) ∧
    (BothSides "naver" userId db
        ((naverRevoke disconnects clientId clientSecret userId accessToken c).on ⟨db, []⟩) ↔
      TokenFits disconnects "naver" (naverRevocation clientId clientSecret accessToken) userId c
        db) :=
  ⟨bothSides_iff disconnects "kakao" "Kakao" _ userId c db,
    bothSides_iff disconnects "naver" "Naver" _ userId c db⟩

/-- One link of the user `u`. -/
def sampleDb (provider : String) : Db :=
  { Db.empty with links := ⟨[⟨provider, "s1", "u"⟩], List.nodup_singleton _⟩ }

/-- The token is of an account that is not the user's: 204, the link of `s1` is gone, and the
    account disconnected is `s2`. -/
theorem revoke_strangers_token :
    ¬ BothSides "kakao" "u" (sampleDb "kakao")
        ((kakaoRevoke (fun _ => some "s2") "u" "token of s2" ⟨.status 200, false⟩).on
          ⟨sampleDb "kakao", []⟩) ∧
      ¬ BothSides "naver" "u" (sampleDb "naver")
        ((naverRevoke (fun _ => some "s2") "id" "secret" "u" "token of s2" ⟨.status 200, false⟩).on
          ⟨sampleDb "naver", []⟩) := by
  have hon : (kakaoRevoke (fun _ => some "s2") "u" "token of s2" ⟨.status 200, false⟩).on
      ⟨sampleDb "kakao", []⟩ = (.ok (), ⟨Db.empty, [("kakao", "s2")]⟩) := by decide
  have hon' : (naverRevoke (fun _ => some "s2") "id" "secret" "u" "token of s2"
      ⟨.status 200, false⟩).on ⟨sampleDb "naver", []⟩ =
        (.ok (), ⟨Db.empty, [("naver", "s2")]⟩) := by decide
  rw [hon, hon']
  constructor
  · rintro ⟨link, hrow, -, -, -, haccount⟩
    obtain rfl := List.mem_singleton.mp hrow
    simp at haccount
  · rintro ⟨link, hrow, -, -, -, haccount⟩
    obtain rfl := List.mem_singleton.mp hrow
    simp at haccount

end TemisLab.External.Disconnecting
