/-
# No handler without a key

A handler of REST or GraphQL runs for an exchange only after two things have happened: the
bearer in the header of its request was matched with a row of the key table, and the limiter
was asked once, for that key.  This holds however the exchanges, the changes of keys and the
expiry of the cache interleave.  The invariant says for each stage what has been established
about the exchange; of the key table it needs only which rows were there at some moment.
-/
import Cellora.Api.Gateway

namespace Cellora

namespace Api

/-! ### Who a bearer stands for -/

section Vouches

variable {A : Argon2Lib} {ttl : ℕ} {Seen : ApiKey → Prop} {w : World}

/-- The key is that of a row, one of those that were seen, which the bearer matches. -/
def Vouches (A : Argon2Lib) (Seen : ApiKey → Prop) (bearer : String) (key : AuthenticatedKey) :
    Prop :=
  ∃ row, Seen row ∧ RowMatches A bearer row ∧ key = resolved row

/-- The errors of `resolve`. -/
def ApiError.Refuses : ApiError → Prop
  | .unauthorized _ => True
  | .internal _ => True
  | _ => False

/-- What the stage of a request says about its bearer. -/
def Request.Vouched (A : Argon2Lib) (Seen : ApiKey → Prop) (req : Request) : Prop :=
  match req.stage with
  | .arrived => True
  | .missed => True
  | .found row => Seen row ∧ row.revokedAt = none ∧
      ∃ secret, splitBearer req.bearer = .ok (row.keyPrefix, secret)
  | .verified row => Seen row ∧ RowMatches A req.bearer row
  | .answered (.ok key) => Vouches A Seen req.bearer key
  | .answered (.error err) => err.Refuses

/-- The cache and the requests name keys only of rows that match. -/
structure World.Vouched (A : Argon2Lib) (Seen : ApiKey → Prop) (w : World) : Prop where
  cache : ∀ e ∈ w.cache, Vouches A Seen e.bearer e.key
  requests : ∀ req ∈ w.requests, req.Vouched A Seen

lemma Vouches.mono {Seen' : ApiKey → Prop} (hmono : ∀ row, Seen row → Seen' row)
    {bearer : String} {key : AuthenticatedKey} (h : Vouches A Seen bearer key) :
    Vouches A Seen' bearer key := by
  obtain ⟨row, hrow, hmatch, hkey⟩ := h
  exact ⟨row, hmono row hrow, hmatch, hkey⟩

lemma World.Vouched.mono {Seen' : ApiKey → Prop} (hmono : ∀ row, Seen row → Seen' row)
    (h : w.Vouched A Seen) : w.Vouched A Seen' := by
  refine ⟨fun e he => (h.cache e he).mono hmono, fun req hreq => ?_⟩
  have hold := h.requests req hreq
  obtain ⟨bearer, stage⟩ := req
  cases stage with
  | arrived => trivial
  | missed => trivial
  | found row => exact ⟨hmono row hold.1, hold.2⟩
  | verified row => exact ⟨hmono row hold.1, hold.2⟩
  | answered result =>
      cases result with
      | ok key => exact Vouches.mono hmono hold
      | error err => exact hold

lemma AuthCache.mem_of_get {now : ℕ} {bearer : String} {cache : List CacheEntry}
    {key : AuthenticatedKey} (h : AuthCache.get ttl now bearer cache = some key) :
    ∃ e ∈ cache, e.bearer = bearer ∧ e.key = key := by
  obtain ⟨e, he, hkey⟩ := Option.map_eq_some_iff.1 h
  have hcond := List.find?_some he
  simp only [Bool.and_eq_true, beq_iff_eq] at hcond
  exact ⟨e, List.mem_of_find?_eq_some he, hcond.1, hkey⟩

lemma splitBearer_refuses {bearer : String} {err : ApiError}
    (h : splitBearer bearer = .error err) : err.Refuses := by
  rw [splitBearer] at h
  split at h
  · rw [← Except.error.inj h]
    trivial
  · rw [← Except.error.inj h]
    trivial
  · cases h

lemma vouched_readStage (A : Argon2Lib) (hseen : ∀ row ∈ w.apiKeys, Seen row)
    (fault : Option String) (bearer : String) :
    Request.Vouched A Seen ⟨bearer, readStage fault bearer w.apiKeys⟩ := by
  unfold readStage
  cases hsplit : splitBearer bearer with
  | error err => exact splitBearer_refuses hsplit
  | ok halves =>
      obtain ⟨keyPrefix, secret⟩ := halves
      cases fault with
      | some message => trivial
      | none =>
          cases hfind : ApiKeys.findActiveByPrefix keyPrefix w.apiKeys with
          | none =>
              simp only [hfind]
              trivial
          | some row =>
              simp only [hfind]
              obtain ⟨hmem, hpre, hactive⟩ := ApiKeys.mem_of_findActiveByPrefix hfind
              exact ⟨hseen row hmem, hactive, secret, by rw [hsplit, hpre]⟩

lemma vouched_verifyStage {bearer : String} {row : ApiKey}
    (h : Request.Vouched A Seen ⟨bearer, .found row⟩) :
    Request.Vouched A Seen ⟨bearer, verifyStage A bearer row⟩ := by
  obtain ⟨hrow, hactive, secret, hsplit⟩ := h
  simp only [verifyStage, hsplit]
  cases hverify : Keys.verify A secret row.secretHash with
  | error e => trivial
  | ok u =>
      refine ⟨hrow, hactive, ?_⟩
      rw [hsplit]
      exact ⟨rfl, hverify⟩

/-- An action of one request keeps what the others have. -/
lemma World.Vouched.set (h : w.Vouched A Seen) {r : ℕ} {req : Request}
    (hreq : req.Vouched A Seen) : ∀ req' ∈ w.requests.set r req, req'.Vouched A Seen := by
  intro req' hreq'
  rcases List.mem_or_eq_of_mem_set hreq' with hreq' | rfl
  · exact h.requests req' hreq'
  · exact hreq

/-- **Every move names keys only of rows that match.** -/
lemma World.Vouched.exec (h : w.Vouched A Seen) (hseen : ∀ row ∈ w.apiKeys, Seen row)
    (m : AuthMove) : (w.exec A ttl m).Vouched A Seen := by
  rcases exec_cases A ttl w m with ⟨r, fault, rfl, hadv⟩ | ⟨hcache, hreqs⟩
  · generalize w.exec A ttl (.advance r fault) = w' at hadv
    cases hadv with
    | idle => exact h
    | hit hreq hget =>
        obtain ⟨e, he, rfl, rfl⟩ := AuthCache.mem_of_get hget
        exact ⟨h.cache, h.set (h.cache e he)⟩
    | miss hreq => exact ⟨h.cache, h.set trivial⟩
    | read hreq => exact ⟨h.cache, h.set (vouched_readStage A hseen _ _)⟩
    | verify hreq =>
        exact ⟨h.cache, h.set (vouched_verifyStage (h.requests _ (List.mem_of_getElem? hreq)))⟩
    | insert hreq =>
        obtain ⟨hrow, hmatch⟩ := h.requests _ (List.mem_of_getElem? hreq)
        refine ⟨fun e he => ?_, h.set ⟨_, hrow, hmatch, rfl⟩⟩
        rcases List.mem_cons.1 he with rfl | he
        · exact ⟨_, hrow, hmatch, rfl⟩
        · exact h.cache e (List.mem_of_mem_filter he)
  · refine ⟨fun e he => h.cache e (hcache he), fun req hreq => ?_⟩
    rcases hreqs with hreqs | ⟨b, hreqs⟩
    · exact h.requests req (hreqs ▸ hreq)
    · rw [hreqs] at hreq
      rcases List.mem_append.1 hreq with hreq | hreq
      · exact h.requests req hreq
      · rw [List.mem_singleton.1 hreq]
        trivial

/-- A request keeps its place and its bearer. -/
lemma exists_bearer_exec (A : Argon2Lib) (ttl : ℕ) (m : AuthMove) {r : ℕ} {bearer : String}
    {stage : Stage} (h : w.requests[r]? = some ⟨bearer, stage⟩) :
    ∃ stage', (w.exec A ttl m).requests[r]? = some ⟨bearer, stage'⟩ := by
  have hset : ∀ {r' : ℕ} {b : String} {old new : Stage}, w.requests[r']? = some ⟨b, old⟩ →
      ∃ stage', (w.requests.set r' ⟨b, new⟩)[r]? = some ⟨bearer, stage'⟩ := by
    intro r' b old new hold
    rw [List.getElem?_set]
    split
    · rename_i hr
      subst hr
      rw [if_pos (List.getElem?_eq_some_iff.1 h).1]
      rw [h] at hold
      obtain ⟨rfl, -⟩ := Request.mk.inj (Option.some.inj hold)
      exact ⟨new, rfl⟩
    · exact ⟨stage, h⟩
  rcases exec_cases A ttl w m with ⟨r', fault, rfl, hadv⟩ | ⟨-, hreqs | ⟨b, hreqs⟩⟩
  · generalize w.exec A ttl (.advance r' fault) = w' at hadv
    cases hadv with
    | idle => exact ⟨stage, h⟩
    | hit hreq hget => exact hset hreq
    | miss hreq => exact hset hreq
    | read hreq => exact hset hreq
    | verify hreq => exact hset hreq
    | insert hreq => exact hset hreq
  · exact ⟨stage, by rw [hreqs, h]⟩
  · exact ⟨stage, by rw [hreqs, List.getElem?_append_left (List.getElem?_eq_some_iff.1 h).1, h]⟩

end Vouches

/-! ### What has been established about an exchange -/

/-- The request is for a surface of the API, and its header holds a bearer that stands for the
key. -/
def Exchange.Presents (A : Argon2Lib) (Seen : ApiKey → Prop) (e : Exchange)
    (key : AuthenticatedKey) : Prop :=
  ∃ surface bearer, e.request.surface = some surface ∧
    extractBearer e.request.authorization = .ok bearer ∧ Vouches A Seen bearer key

/-- The response of `auth::middleware` to a request it refuses. -/
def Response.Refusal (response : Response) : Prop :=
  ∃ err : ApiError, err.Refuses ∧ response = err.intoResponse

/-- The invariant of an exchange.  `Passed` says of a key and a decision that the limiter let
the exchange pass. -/
def Exchange.Ok (A : Argon2Lib) (Seen : ApiKey → Prop)
    (Passed : AuthenticatedKey → Option Decision → Prop) (w : World) (e : Exchange) : Prop :=
  match e.stage with
  | .resolving r => ∃ surface bearer stage, e.request.surface = some surface ∧
      extractBearer e.request.authorization = .ok bearer ∧
      w.requests[r]? = some ⟨bearer, stage⟩
  | .limiting key => e.Presents A Seen key
  | .handling none _ => e.request.surface = none
  | .handling (some key) decision => e.Presents A Seen key ∧ Passed key decision
  | .returning none response => e.request.surface = none ∨ response.Refusal
  | .returning (some key) _ => e.Presents A Seen key
  | .done none _ response => e.request.surface = none ∨
      ∃ refusal : Response, refusal.Refusal ∧ response = propagateRequestId e.id refusal
  | .done (some key) _ _ => e.Presents A Seen key
  | .cut _ => True

section Exchange

variable {A : Argon2Lib} {Seen Seen' : ApiKey → Prop} {w w' : World} {e : Exchange}
  {Passed Passed' : AuthenticatedKey → Option Decision → Prop}

lemma Exchange.Presents.mono (hseen : ∀ row, Seen row → Seen' row) {key : AuthenticatedKey}
    (h : e.Presents A Seen key) : e.Presents A Seen' key := by
  obtain ⟨surface, bearer, hsurface, hbearer, hvouches⟩ := h
  exact ⟨surface, bearer, hsurface, hbearer, hvouches.mono hseen⟩

/-- What is established stays so. -/
lemma Exchange.Ok.mono (hseen : ∀ row, Seen row → Seen' row)
    (hpassed : ∀ key decision, Passed key decision → Passed' key decision)
    (hbearers : ∀ (r : ℕ) (bearer : String) (stage : Stage),
      w.requests[r]? = some ⟨bearer, stage⟩ → ∃ stage', w'.requests[r]? = some ⟨bearer, stage'⟩)
    (h : e.Ok A Seen Passed w) : e.Ok A Seen' Passed' w' := by
  obtain ⟨request, id, stage⟩ := e
  match stage, h with
  | .resolving r, ⟨surface, bearer, stage, hsurface, hbearer, hreq⟩ =>
      obtain ⟨stage', hreq'⟩ := hbearers r bearer stage hreq
      exact ⟨surface, bearer, stage', hsurface, hbearer, hreq'⟩
  | .limiting key, h => exact h.mono hseen
  | .handling none _, h => exact h
  | .handling (some key) decision, h => exact ⟨h.1.mono hseen, hpassed key decision h.2⟩
  | .returning none _, h => exact h
  | .returning (some key) _, h => exact h.mono hseen
  | .done none _ _, h => exact h
  | .done (some key) _ _, h => exact h.mono hseen
  | .cut _, _ => trivial

/-- Every reason for which a bearer cannot be extracted is a refusal. -/
lemma extractBearer_refuses {authorization : Option Bytes} {err : ApiError}
    (h : extractBearer authorization = .error err) : err.Refuses := by
  unfold extractBearer at h
  split at h
  · rw [← Except.error.inj h]
    trivial
  · split at h
    · rw [← Except.error.inj h]
      trivial
    · split at h
      · rw [← Except.error.inj h]
        trivial
      · split at h
        · rw [← Except.error.inj h]
          trivial
        · cases h

/-- The outer layers add only the id of the request to a refusal. -/
lemma tipHeaders_refusal {response : Response} (h : response.Refusal) (snap : TipSnapshot)
    (now : ℕ) : tipHeaders snap now response = response := by
  obtain ⟨err, hrefuses, rfl⟩ := h
  cases err with
  | unauthorized reason => rfl
  | internal message => rfl
  | _ => exact absurd hrefuses id

end Exchange

namespace Gateway

/-- The invariant. -/
structure Mediated (A : Argon2Lib) (Seen : ApiKey → Prop)
    (Passed : ℕ → AuthenticatedKey → Option Decision → Prop) (s : Gateway) : Prop where
  auth : s.auth.Vouched A Seen
  exchanges : ∀ {i : ℕ} {e : Exchange}, s.exchanges[i]? = some e →
    e.Ok A Seen (Passed i) s.auth

section Step

variable {cfg : GatewayConfig} {A : Argon2Lib} {ttl : ℕ} {s : Gateway} {m : GatewayMove}
  {Seen Seen' : ApiKey → Prop} {Passed Passed' : ℕ → AuthenticatedKey → Option Decision → Prop}

lemma Mediated.mono (hseen : ∀ row, Seen row → Seen' row)
    (hpassed : ∀ i key decision, Passed i key decision → Passed' i key decision)
    (h : s.Mediated A Seen Passed) : s.Mediated A Seen' Passed' :=
  ⟨h.auth.mono hseen, fun {i _} he => (h.exchanges he).mono hseen (hpassed i)
    fun _ _ stage hreq => ⟨stage, hreq⟩⟩

/-- A move of the world. -/
lemma Mediated.auth_exec (h : s.Mediated A Seen Passed)
    (hseen : ∀ row ∈ s.auth.apiKeys, Seen row) (m : AuthMove) :
    Mediated A Seen Passed { s with auth := s.auth.exec A ttl m } :=
  ⟨h.auth.exec hseen m, fun he => (h.exchanges he).mono (fun _ hrow => hrow) (fun _ _ hp => hp)
    fun _ _ _ hreq => exists_bearer_exec A ttl m hreq⟩

/-- A new exchange. -/
lemma Mediated.append (h : s.Mediated A Seen Passed) {e : Exchange}
    (he : e.Ok A Seen (Passed s.exchanges.length) s.auth) :
    Mediated A Seen Passed { s with exchanges := s.exchanges ++ [e] } := by
  refine ⟨h.auth, fun {i e'} he' => ?_⟩
  by_cases hi : i < s.exchanges.length
  · rw [List.getElem?_append_left hi] at he'
    exact h.exchanges he'
  · rw [List.getElem?_append_right (not_lt.1 hi), List.getElem?_singleton] at he'
    split at he'
    · rename_i hzero
      obtain rfl : s.exchanges.length = i := by omega
      exact Option.some.inj he' ▸ he
    · cases he'

/-- One exchange goes on. -/
lemma Mediated.setStage (h : s.Mediated A Seen Passed) {i : ℕ} {e : Exchange}
    {stage : ExchangeStage}
    (hnew : Exchange.Ok A Seen (Passed i) s.auth { e with stage := stage }) :
    (s.setStage i e stage).Mediated A Seen Passed := by
  refine ⟨h.auth, fun {j e'} he' => ?_⟩
  rcases getElem?_of_set he' with he' | ⟨rfl, rfl⟩
  · exact h.exchanges he'
  · exact hnew

/-- **Every move keeps the invariant**, if what the limiter lets pass has passed. -/
lemma Mediated.exec (h : s.Mediated A Seen Passed) (hseen : ∀ row ∈ s.auth.apiKeys, Seen row)
    (hpass : ∀ {i : ℕ} {call : Call} {reply : ScriptReply} {e : Exchange}
      {key : AuthenticatedKey} {surface : Surface} {decision : Option Decision},
      m = .limit i call reply → s.exchanges[i]? = some e → e.stage = .limiting key →
      e.request.surface = some surface →
      (consult cfg surface call.nowMs reply key
        (call.arrive (bucketKey surface key.keyPrefix) s.buckets)).1 = .ok decision →
      Passed i key decision) :
    (s.exec cfg A ttl m).Mediated A Seen Passed := by
  have hm := moved cfg A ttl s m
  generalize s.exec cfg A ttl m = s' at hm
  cases hm with
  | idle => exact h
  | auth hm => exact h.auth_exec hseen _
  | published snap => exact ⟨h.auth, h.exchanges⟩
  | opened hsurface => exact h.append hsurface
  | unreadable hsurface hbearer =>
      exact h.append (Or.inr ⟨_, extractBearer_refuses hbearer, rfl⟩)
  | @arrived request uuid surface bearer hsurface hbearer =>
      have hauth : Mediated A Seen Passed { s with auth := s.auth.exec A ttl (.request bearer) } :=
        h.auth_exec hseen _
      have hnew : Exchange.Ok A Seen (Passed s.exchanges.length)
          (s.auth.exec A ttl (.request bearer))
          ⟨request, request.requestId.getD uuid, .resolving s.auth.requests.length⟩ :=
        ⟨surface, bearer, .arrived, hsurface, hbearer, List.getElem?_concat_length⟩
      exact hauth.append hnew
  | @resolved i r e bearer key he hstage hreq =>
      have hold := h.exchanges he
      obtain ⟨request, id, stage⟩ := e
      obtain rfl : stage = .resolving r := hstage
      obtain ⟨surface, bearer', stage', hsurface, hbearer, hreq'⟩ := hold
      rw [hreq] at hreq'
      obtain ⟨rfl, -⟩ := Request.mk.inj (Option.some.inj hreq')
      exact h.setStage
        ⟨surface, bearer, hsurface, hbearer, h.auth.requests _ (List.mem_of_getElem? hreq)⟩
  | @refused i r e bearer err he hstage hreq =>
      exact h.setStage (Or.inr ⟨err, h.auth.requests _ (List.mem_of_getElem? hreq), rfl⟩)
  | @limited i call reply e key surface response buckets he hstage hsurface hconsult =>
      have hold := h.exchanges he
      obtain ⟨request, id, stage⟩ := e
      obtain rfl : stage = .limiting key := hstage
      have hset : (s.setStage i ⟨request, id, .limiting key⟩
          (.returning (some key) response)).Mediated A Seen Passed := h.setStage hold
      exact ⟨hset.auth, hset.exchanges⟩
  | @admitted i call reply e key surface decision buckets he hstage hsurface hconsult =>
      have hold := h.exchanges he
      have hpassed : Passed i key decision :=
        hpass rfl he hstage hsurface (congrArg Prod.fst hconsult)
      obtain ⟨request, id, stage⟩ := e
      obtain rfl : stage = .limiting key := hstage
      have hset : (s.setStage i ⟨request, id, .limiting key⟩
          (.handling (some key) decision)).Mediated A Seen Passed := h.setStage ⟨hold, hpassed⟩
      exact ⟨hset.auth, hset.exchanges⟩
  | @handled i response e key decision he hstage =>
      have hold := h.exchanges he
      obtain ⟨request, id, stage⟩ := e
      obtain rfl : stage = .handling key decision := hstage
      cases key with
      | none => exact h.setStage (Or.inl hold)
      | some key => exact h.setStage hold.1
  | @finished i now latencyMs e key response final he hstage hfinal =>
      have hold := h.exchanges he
      obtain ⟨request, id, stage⟩ := e
      obtain rfl : stage = .returning key response := hstage
      have hset : (s.setStage i ⟨request, id, .returning key response⟩
          (.done key latencyMs final)).Mediated A Seen Passed := by
        refine h.setStage ?_
        cases key with
        | some key => exact hold
        | none =>
            rcases hold with hsurface | hrefusal
            · exact Or.inl hsurface
            · rw [tipHeaders_refusal hrefusal] at hfinal
              exact Or.inr ⟨response, hrefusal, hfinal⟩
      exact ⟨hset.auth, hset.exchanges⟩
  | cut he hopen => exact h.setStage trivial

/-! ### An exchange goes forward -/

/-- How far a stage is. -/
def rank : ExchangeStage → ℕ
  | .resolving _ => 0
  | .limiting _ => 1
  | .handling .. => 2
  | .returning .. => 3
  | .done .. | .cut _ => 4

/-- An exchange that has changed has gone forward. -/
lemma rank_setStage {i j : ℕ} {e e₀ : Exchange} {stage : ExchangeStage}
    (he : s.exchanges[i]? = some e) (hrank : rank e.stage ≤ rank stage)
    (he₀ : s.exchanges[j]? = some e₀) :
    ∃ e', (s.setStage i e stage).exchanges[j]? = some e' ∧ e'.request = e₀.request ∧
      rank e₀.stage ≤ rank e'.stage := by
  rw [setStage, List.getElem?_set]
  split
  · rename_i hij
    subst hij
    rw [if_pos (List.getElem?_eq_some_iff.1 he).1]
    obtain rfl : e = e₀ := Option.some.inj (he.symm.trans he₀)
    exact ⟨_, rfl, rfl, hrank⟩
  · exact ⟨e₀, he₀, rfl, le_rfl⟩

lemma rank_le_of_isOpen (stage : ExchangeStage) (response : Option Response) :
    rank stage ≤ rank (.cut response) := by
  cases stage <;> simp [rank]

/-- **No exchange goes back.** -/
lemma rank_exec (cfg : GatewayConfig) (A : Argon2Lib) (ttl : ℕ) (m : GatewayMove) {j : ℕ}
    {e₀ : Exchange} (he₀ : s.exchanges[j]? = some e₀) :
    ∃ e', (s.exec cfg A ttl m).exchanges[j]? = some e' ∧ e'.request = e₀.request ∧
      rank e₀.stage ≤ rank e'.stage := by
  have happend : ∀ e : Exchange, ∃ e', (s.exchanges ++ [e])[j]? = some e' ∧
      e'.request = e₀.request ∧ rank e₀.stage ≤ rank e'.stage := fun e =>
    ⟨e₀, by rw [List.getElem?_append_left (List.getElem?_eq_some_iff.1 he₀).1, he₀], rfl, le_rfl⟩
  have hm := moved cfg A ttl s m
  generalize s.exec cfg A ttl m = s' at hm
  cases hm with
  | idle => exact ⟨e₀, he₀, rfl, le_rfl⟩
  | auth hm => exact ⟨e₀, he₀, rfl, le_rfl⟩
  | published snap => exact ⟨e₀, he₀, rfl, le_rfl⟩
  | opened hsurface => exact happend _
  | unreadable hsurface hbearer => exact happend _
  | arrived hsurface hbearer => exact happend _
  | resolved he hstage hreq => exact rank_setStage he (by simp [hstage, rank]) he₀
  | refused he hstage hreq => exact rank_setStage he (by simp [hstage, rank]) he₀
  | limited he hstage hsurface hconsult => exact rank_setStage he (by simp [hstage, rank]) he₀
  | admitted he hstage hsurface hconsult => exact rank_setStage he (by simp [hstage, rank]) he₀
  | handled he hstage => exact rank_setStage he (by simp [hstage, rank]) he₀
  | finished he hstage hfinal => exact rank_setStage he (by simp [hstage, rank]) he₀
  | cut he hopen => exact rank_setStage he (rank_le_of_isOpen _ _) he₀

/-- Whatever the limiter says, the exchange is past it. -/
lemma rank_limit (cfg : GatewayConfig) (A : Argon2Lib) (ttl : ℕ) (call : Call)
    (reply : ScriptReply) {i : ℕ} {e : Exchange} {key : AuthenticatedKey} {surface : Surface}
    (he : s.exchanges[i]? = some e)
    (hstage : e.stage = .limiting key) (hsurface : e.request.surface = some surface) :
    ∃ e', (s.exec cfg A ttl (.limit i call reply)).exchanges[i]? = some e' ∧
      2 ≤ rank e'.stage := by
  have hset : ∀ stage : ExchangeStage,
      (s.setStage i e stage).exchanges[i]? = some { e with stage := stage } := fun stage => by
    rw [setStage, List.getElem?_set_self (List.getElem?_eq_some_iff.1 he).1]
  simp only [Gateway.exec, Gateway.limit, he, hstage, hsurface]
  split
  · exact ⟨_, hset _, by simp [rank]⟩
  · exact ⟨_, hset _, le_rfl⟩

end Step

/-! ### Whole runs -/

section Runs

variable (cfg : GatewayConfig) (A : Argon2Lib) (ttl : ℕ) (s₀ : Gateway) (ms : List GatewayMove)

/-- The row was in the key table before the move at `k`, or earlier. -/
def SeenBy (k : ℕ) (row : ApiKey) : Prop :=
  ∃ j ≤ k, row ∈ (stateAt cfg A ttl s₀ ms j).auth.apiKeys

/-- In the move at `j` the limiter is asked about the exchange `i`. -/
def AskedAt (j i : ℕ) : Prop :=
  ∃ call reply e key, ms[j]? = some (.limit i call reply) ∧
    (stateAt cfg A ttl s₀ ms j).exchanges[i]? = some e ∧ e.stage = .limiting key

/-- The exchange passes: there is no limiter, or it could not be reached and fails open, or its
decision, which then goes onto the response, allows the request. -/
def Passes (reply : ScriptReply) (found : Decision) (decision : Option Decision) : Prop :=
  (cfg.limiter = none ∧ decision = none) ∨
    (cfg.limiter = some true ∧ reply ≠ .answered ∧ decision = none) ∨
    (cfg.limiter.isSome = true ∧ reply = .answered ∧ found.allowed = true ∧
      decision = some found)

/-- In the move at `j` the exchange `i`, with the key, passes the limiter. -/
def PassesAt (j i : ℕ) (key : AuthenticatedKey) (decision : Option Decision) : Prop :=
  ∃ call reply e surface, ms[j]? = some (.limit i call reply) ∧
    (stateAt cfg A ttl s₀ ms j).exchanges[i]? = some e ∧ e.stage = .limiting key ∧
    e.request.surface = some surface ∧
    Passes cfg reply (check key.keyPrefix surface
      (LimitParams.fromConfig cfg.limits key.tier surface) call.nowMs
      (call.arrive (bucketKey surface key.keyPrefix) (stateAt cfg A ttl s₀ ms j).buckets)).1
      decision

variable {cfg A ttl s₀ ms}

lemma passes_of_consult {surface : Surface} {nowMs : ℕ} {reply : ScriptReply}
    {key : AuthenticatedKey} {redis : Redis} {decision : Option Decision}
    (h : (consult cfg surface nowMs reply key redis).1 = .ok decision) :
    Passes cfg reply (check key.keyPrefix surface
      (LimitParams.fromConfig cfg.limits key.tier surface) nowMs redis).1 decision := by
  unfold consult at h
  split at h
  · rename_i hlimiter
    exact Or.inl ⟨hlimiter, (Except.ok.inj h).symm⟩
  · rename_i failOpen hlimiter
    cases reply with
    | answered =>
        dsimp only at h
        split at h
        · rename_i hallowed
          exact Or.inr (Or.inr ⟨by rw [hlimiter]; rfl, rfl, hallowed, (Except.ok.inj h).symm⟩)
        · cases h
    | lost =>
        dsimp only at h
        split at h
        · rename_i hopen
          exact Or.inr (Or.inl ⟨by rw [hlimiter, hopen], by decide, (Except.ok.inj h).symm⟩)
        · cases h
    | failed =>
        dsimp only at h
        split at h
        · rename_i hopen
          exact Or.inr (Or.inl ⟨by rw [hlimiter, hopen], by decide, (Except.ok.inj h).symm⟩)
        · cases h

/-- The exchange has passed the limiter before the move at `k`. -/
def PassedBy (cfg : GatewayConfig) (A : Argon2Lib) (ttl : ℕ) (s₀ : Gateway)
    (ms : List GatewayMove) (k i : ℕ) (key : AuthenticatedKey) (decision : Option Decision) :
    Prop :=
  ∃ j < k, PassesAt cfg A ttl s₀ ms j i key decision

lemma Mediated.later {s : Gateway} {k : ℕ}
    (h : s.Mediated A (SeenBy cfg A ttl s₀ ms k) (PassedBy cfg A ttl s₀ ms k)) :
    s.Mediated A (SeenBy cfg A ttl s₀ ms (k + 1)) (PassedBy cfg A ttl s₀ ms (k + 1)) := by
  refine h.mono ?_ ?_
  · rintro row ⟨j, hj, hrow⟩
    exact ⟨j, Nat.le_succ_of_le hj, hrow⟩
  · rintro i key decision ⟨j, hj, hpass⟩
    exact ⟨j, Nat.lt_succ_of_lt hj, hpass⟩

/-- **The invariant holds at every moment of every run.** -/
lemma mediated_stateAt (cfg : GatewayConfig) (A : Argon2Lib) (ttl clock : ℕ) (rows : List ApiKey)
    (tip : TipSnapshot) (ms : List GatewayMove) (k : ℕ) :
    (stateAt cfg A ttl (start clock rows tip) ms k).Mediated A
      (SeenBy cfg A ttl (start clock rows tip) ms k)
      (PassedBy cfg A ttl (start clock rows tip) ms k) := by
  refine Machine.before_induction (exec cfg A ttl) (fun k s => s.Mediated A
    (SeenBy cfg A ttl (start clock rows tip) ms k)
    (PassedBy cfg A ttl (start clock rows tip) ms k)) ?_ ?_ ?_ k
  · exact ⟨⟨fun e he => absurd he List.not_mem_nil, fun req hreq => absurd hreq List.not_mem_nil⟩,
      fun he => by cases he⟩
  · intro k m hm h
    refine h.later.exec (fun row hrow => ⟨k, Nat.le_succ k, hrow⟩) ?_
    rintro i call reply e key surface decision rfl he hstage hsurface hconsult
    exact ⟨k, Nat.lt_succ_self k, call, reply, e, surface, hm, he, hstage, hsurface,
      passes_of_consult hconsult⟩
  · intro k s h
    exact h.later

lemma stateAt_succ {k : ℕ} {m : GatewayMove} (hm : ms[k]? = some m) :
    stateAt cfg A ttl s₀ ms (k + 1) = (stateAt cfg A ttl s₀ ms k).exec cfg A ttl m :=
  Machine.before_succ _ hm

/-- An exchange is there from its arrival on, with the same request, and goes forward. -/
lemma exists_later {j k i : ℕ} {e : Exchange} (hjk : j ≤ k)
    (he : (stateAt cfg A ttl s₀ ms j).exchanges[i]? = some e) :
    ∃ e', (stateAt cfg A ttl s₀ ms k).exchanges[i]? = some e' ∧ e'.request = e.request ∧
      rank e.stage ≤ rank e'.stage := by
  induction hjk with
  | refl => exact ⟨e, he, rfl, le_rfl⟩
  | @step k hjk ih =>
      obtain ⟨e', he', hrequest, hrank⟩ := ih
      cases hm : ms[k]? with
      | none =>
          refine ⟨e', ?_, hrequest, hrank⟩
          rw [stateAt, Machine.before_succ_of_none _ hm]
          exact he'
      | some m =>
          obtain ⟨e'', he'', hrequest', hrank'⟩ := rank_exec cfg A ttl m he'
          refine ⟨e'', ?_, hrequest'.trans hrequest, hrank.trans hrank'⟩
          rw [stateAt_succ hm]
          exact he''

/-- The limiter is asked about an exchange at most once. -/
lemma askedAt_unique (cfg : GatewayConfig) (A : Argon2Lib) (ttl clock : ℕ) (rows : List ApiKey)
    (tip : TipSnapshot) (ms : List GatewayMove) {i j j' : ℕ}
    (h : AskedAt cfg A ttl (start clock rows tip) ms j i)
    (h' : AskedAt cfg A ttl (start clock rows tip) ms j' i) : j = j' := by
  have hlt : ∀ {j j' : ℕ}, AskedAt cfg A ttl (start clock rows tip) ms j i →
      AskedAt cfg A ttl (start clock rows tip) ms j' i → ¬ j < j' := by
    rintro j j' ⟨call, reply, e, key, hm, he, hstage⟩ ⟨-, -, e', key', -, he', hstage'⟩ hlt
    have hok := (mediated_stateAt cfg A ttl clock rows tip ms j).exchanges he
    rw [Exchange.Ok, hstage] at hok
    obtain ⟨surface, -, hsurface, -⟩ := hok
    obtain ⟨e₁, he₁, hrank₁⟩ := rank_limit cfg A ttl call reply he hstage hsurface
    rw [← stateAt_succ hm] at he₁
    obtain ⟨e₂, he₂, -, hrank₂⟩ := exists_later hlt he₁
    obtain rfl : e₂ = e' := Option.some.inj (he₂.symm.trans he')
    rw [hstage'] at hrank₂
    exact absurd (hrank₁.trans hrank₂) (by simp [rank])
  rcases lt_trichotomy j j' with hj | hj | hj
  · exact absurd hj (hlt h h')
  · exact hj
  · exact absurd hj (hlt h' h)

/-- **Complete mediation.**  In every run, for every exchange on a surface of the API: if its
handler runs, then its own header holds a bearer that matched a row of the key table, which
was active then, and the key the handler sees is that row's; and before, in exactly one move,
the limiter was asked about this exchange and let it pass.  If it is finished without a key,
then the response is one of two, whatever was wrong with the credentials: that of all
unauthorized requests, or that of an internal error. -/
theorem gateway_mediates (cfg : GatewayConfig) (A : Argon2Lib) (ttl clock : ℕ)
    (rows : List ApiKey) (tip : TipSnapshot) (ms : List GatewayMove) (k i : ℕ) (e : Exchange)
    (surface : Surface)
    (he : (stateAt cfg A ttl (start clock rows tip) ms k).exchanges[i]? = some e)
    (hsurface : e.request.surface = some surface) :
    (∀ key decision, e.stage = .handling key decision →
      ∃ owner bearer, key = some owner ∧ extractBearer e.request.authorization = .ok bearer ∧
        (∃ j ≤ k, ∃ row ∈ (stateAt cfg A ttl (start clock rows tip) ms j).auth.apiKeys,
          RowMatches A bearer row ∧ owner = resolved row) ∧
        ∃ j < k, PassesAt cfg A ttl (start clock rows tip) ms j i owner decision ∧
          ∀ j', AskedAt cfg A ttl (start clock rows tip) ms j' i → j' = j) ∧
    ∀ latencyMs response, e.stage = .done none latencyMs response →
      response = propagateRequestId e.id (ApiError.unauthorized "").intoResponse ∨
        response = propagateRequestId e.id (ApiError.internal "").intoResponse := by
  have hok := (mediated_stateAt cfg A ttl clock rows tip ms k).exchanges he
  refine ⟨fun key decision hstage => ?_, fun latencyMs response hstage => ?_⟩
  · rw [Exchange.Ok, hstage] at hok
    cases key with
    | none => exact absurd (hsurface.symm.trans hok) (by simp)
    | some owner =>
        obtain ⟨⟨-, bearer, -, hbearer, row, ⟨j₀, hj₀, hrow⟩, hmatch, hkey⟩, j, hj, hpass⟩ := hok
        refine ⟨owner, bearer, rfl, hbearer, ⟨j₀, hj₀, row, hrow, hmatch, hkey⟩, j, hj, hpass,
          fun j' hasked => askedAt_unique cfg A ttl clock rows tip ms hasked ?_⟩
        obtain ⟨call, reply, e', -, hm, he', hstage', -⟩ := hpass
        exact ⟨call, reply, e', owner, hm, he', hstage'⟩
  · rw [Exchange.Ok, hstage] at hok
    rcases hok with hnone | ⟨refusal, ⟨err, hrefuses, rfl⟩, hresponse⟩
    · exact absurd (hsurface.symm.trans hnone) (by simp)
    · cases err with
      | unauthorized reason => exact Or.inl hresponse
      | internal message => exact Or.inr hresponse
      | _ => exact absurd hrefuses id

end Runs

end Gateway

/-! ### Two exchanges -/

namespace GatewaySample

/-- Two requests at once on REST, one on GraphQL. -/
def cfg : GatewayConfig where
  limits := ⟨Sample.limit, Sample.limit, Sample.limit, ⟨1, 1⟩, ⟨1, 1⟩, ⟨1, 1⟩⟩
  limiter := some true
  redis := true

def tip : TipSnapshot := ⟨some 7, some 9, 0, 0⟩

/-- A request with the key of the sample, without an id. -/
def authorized : HttpRequest :=
  ⟨"GET", "/v1/cells", some .rest, some ("Bearer " ++ Sample.bearer).toUTF8.toList, none⟩

/-- A request without a key. -/
def anonymous : HttpRequest := ⟨"POST", "/graphql", some .graphql, none, some "r-2"⟩

/-- Both arrive; the first goes through all the layers. -/
def moves : List GatewayMove :=
  [.arrive authorized "u-1", .auth (.advance 0 none), .arrive anonymous "u-2",
    .auth (.advance 0 none), .finish 1 0 3, .auth (.advance 0 none), .auth (.advance 0 none),
    .resume 0, .limit 0 ⟨0, false⟩ .answered, .handle 0 ⟨200, [], .handler "[]"⟩, .finish 0 0 5]

/-- The state before a move. -/
def stateBefore (k : ℕ) : Gateway :=
  Gateway.stateAt cfg Sample.argon2 60000 (Gateway.start 0 [Sample.keyRow] tip) moves k

end GatewaySample

section Sample

open GatewaySample

theorem gateway_mediates_sample :
    (∃ owner bearer, extractBearer authorized.authorization = .ok bearer ∧
      (∃ j ≤ 9, ∃ row ∈ (stateBefore j).auth.apiKeys,
        RowMatches Sample.argon2 bearer row ∧ owner = resolved row) ∧
      ∃ j < 9, Gateway.PassesAt cfg Sample.argon2 60000 (Gateway.start 0 [Sample.keyRow] tip)
        moves j 0 owner (some ⟨true, 1, 0, 2⟩)) ∧
    ∃ response, (stateBefore 11).exchanges[1]? = some ⟨anonymous, "r-2", .done none 3 response⟩ ∧
      (response = propagateRequestId "r-2" (ApiError.unauthorized "").intoResponse ∨
        response = propagateRequestId "r-2" (ApiError.internal "").intoResponse) := by
  have hfirst : (stateBefore 9).exchanges[0]? = some ⟨authorized, "u-1",
      .handling (some (resolved Sample.keyRow)) (some ⟨true, 1, 0, 2⟩)⟩ := by decide +kernel
  have hsecond : (stateBefore 11).exchanges[1]? = some ⟨anonymous, "r-2", .done none 3
      (propagateRequestId "r-2" (ApiError.unauthorized "").intoResponse)⟩ := by decide +kernel
  obtain ⟨owner, bearer, -, hbearer, hrow, j, hj, hpass, -⟩ :=
    (Gateway.gateway_mediates cfg Sample.argon2 60000 0 [Sample.keyRow] tip moves 9 0 _ .rest
      hfirst rfl).1 _ _ rfl
  exact ⟨⟨owner, bearer, hbearer, hrow, j, hj, hpass⟩, _, hsecond,
    (Gateway.gateway_mediates cfg Sample.argon2 60000 0 [Sample.keyRow] tip moves 11 1 _ .graphql
      hsecond rfl).2 _ _ rfl⟩

end Sample

end Api

end Cellora
