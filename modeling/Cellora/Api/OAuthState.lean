/-
# Single use of OAuth state tokens

Nothing ties the `GET` of a callback to its `DEL`: between the two, another callback can find
the same token, and both are accepted.  As long as no callback looks a token up while another
one has found it and not yet deleted it, each issue of a token is accepted at most once.  The
argument is one of accounting: an issue pays for one acceptance, or for the token being
usable.

That whatever is accepted was issued by `github_start` and came with its cookie holds in
every run.
-/
import Cellora.Api.OAuth

namespace Cellora

namespace Api

namespace OAuth

/-! ### What a move can do -/

/-- The number of callbacks that have found the token and not yet deleted it. -/
def deletingCount (s : OAuth) (t : String) : ℕ :=
  s.callbacks.countP fun c => c.stage = .deleting ∧ c.token = t

/-- The number of callbacks that got past the check with the token. -/
def acceptedCount (s : OAuth) (t : String) : ℕ :=
  s.callbacks.countP fun c => c.stage.accepted ∧ c.token = t

/-- No other callback has found the token and not yet deleted it when a callback looks it
up.  A `GET` that fails looks nothing up. -/
def Uncontended (s : OAuth) : OAuthMove → Prop
  | .get i true => ∀ c, s.callbacks[i]? = some c → c.stage = .reading →
      ∀ c' ∈ s.callbacks, c'.stage = .deleting → c'.token ≠ c.token
  | _ => True

/-- What a move can do, where `quiet` says that it is uncontended. -/
inductive Moved (quiet : Prop) (s : OAuth) : OAuth → Prop
  | idle : Moved quiet s s
  | issued {t : String} (hfree : stateKey t ∉ s.keys) :
      Moved quiet s { s with keys := stateKey t :: s.keys, issued := t :: s.issued }
  | expired (key : String) : Moved quiet s (s.delKey key)
  | arrived {c : Callback} (hbound : c.stage = .reading → c.Bound)
      (hstage : c.stage = .reading ∨ ∃ err, c.stage = .refused err) :
      Moved quiet s { s with callbacks := s.callbacks ++ [c] }
  | found {i : ℕ} {c : Callback} (hi : s.callbacks[i]? = some c) (hc : c.stage = .reading)
      (hkey : stateKey c.token ∈ s.keys) (hquiet : quiet → s.deletingCount c.token = 0) :
      Moved quiet s (s.setStage i c .deleting)
  | refused {i : ℕ} {c : Callback} (hi : s.callbacks[i]? = some c)
      (hc : c.stage = .reading ∨ c.stage = .deleting) (err : ApiError) :
      Moved quiet s (s.setStage i c (.refused err))
  | lost {i : ℕ} {c : Callback} (hi : s.callbacks[i]? = some c) (hc : c.stage = .deleting)
      (err : ApiError) :
      Moved quiet s ((s.delKey (stateKey c.token)).setStage i c (.refused err))
  | accepted {i : ℕ} {c : Callback} (hi : s.callbacks[i]? = some c) (hc : c.stage = .deleting) :
      Moved quiet s ((s.delKey (stateKey c.token)).setStage i c .exchanging)
  | exchanged {i : ℕ} {c : Callback} (hi : s.callbacks[i]? = some c) (hc : c.stage = .exchanging)
      (outcome : ExchangeOutcome) : Moved quiet s (s.setStage i c outcome.stage)

lemma bound_of_checkCallback {config : OAuthConfig} {request : CallbackRequest} {t : String}
    (h : checkCallback config request = .ok t) (stage : CallbackStage) :
    Callback.Bound ⟨request, stage⟩ := by
  rw [checkCallback] at h
  split at h
  · cases h
  · split at h
    · cases h
    · cases h
    · rename_i stateToken _ hstate
      split_ifs at h with hcookie
      · exact ⟨by rw [Callback.token, hstate, Option.getD_some],
          by rw [Callback.token, hstate, Option.getD_some]; exact not_not.1 hcookie⟩

lemma deletingCount_eq_zero {s : OAuth} {t : String} :
    s.deletingCount t = 0 ↔ ∀ c ∈ s.callbacks, c.stage = .deleting → c.token ≠ t := by
  simp [deletingCount, List.countP_eq_zero]

lemma moved_start (config : OAuthConfig) (s : OAuth) (bytes : Bytes) (reply : CommandReply)
    (quiet : Prop) : Moved quiet s (s.githubStart config bytes reply).1 := by
  have hset : ∀ t, Moved quiet s (s.setNx t reply).2 := by
    intro t
    unfold setNx
    split
    · exact .idle
    · by_cases hfree : stateKey t ∉ s.keys
      · simp only [hfree]
        exact .issued hfree
      · simp only [hfree]
        exact .idle
  rw [githubStart]
  split
  · split
    · exact .idle
    · have h := hset (generateStateToken bytes)
      rcases heq : s.setNx (generateStateToken bytes) reply with ⟨_ | _ | _, s'⟩ <;>
      · rw [heq] at h
        simp only [heq]
        exact h
  · exact .idle

lemma moved_arrive (config : OAuthConfig) (s : OAuth) (request : CallbackRequest)
    (quiet : Prop) : Moved quiet s (s.arrive config request) := by
  rw [arrive]
  cases h : checkCallback config request with
  | ok t => exact .arrived (fun _ => bound_of_checkCallback h _) (.inl rfl)
  | error err =>
      refine .arrived (fun hstage => ?_) (.inr ⟨err, rfl⟩)
      cases hstage

lemma moved_get (s : OAuth) (i : ℕ) (answered : Bool) :
    Moved (Uncontended s (.get i answered)) s (s.get i answered) := by
  rw [get]
  split
  · rename_i request hi
    cases answered with
    | false => exact .refused hi (.inl rfl) _
    | true =>
        by_cases hkey : stateKey (Callback.token ⟨request, .reading⟩) ∈ s.keys
        · simp only [hkey, if_true]
          refine .found hi rfl hkey fun hquiet => ?_
          exact deletingCount_eq_zero.2 (hquiet _ hi rfl)
        · simp only [hkey, if_false]
          exact .refused hi (.inl rfl) _
  · exact .idle

lemma moved_del (s : OAuth) (i : ℕ) (reply : CommandReply) (quiet : Prop) :
    Moved quiet s (s.del i reply) := by
  rw [del]
  split
  · rename_i request hi
    cases reply with
    | answered => exact .accepted hi rfl
    | lost => exact .lost hi rfl _
    | failed => exact .refused hi (.inr rfl) _
  · exact .idle

/-- Every move is one of these. -/
lemma moved_exec (config : OAuthConfig) (s : OAuth) (m : OAuthMove) :
    Moved (Uncontended s m) s (exec config s m) := by
  cases m with
  | start bytes reply => exact moved_start config s bytes reply _
  | arrive request => exact moved_arrive config s request _
  | get i answered => exact moved_get s i answered
  | del i reply => exact moved_del s i reply _
  | exchange i outcome =>
      show Moved _ s (s.exchange i outcome)
      rw [exchange]
      split
      · rename_i request hi
        exact .exchanged hi rfl outcome
      · exact .idle
  | expire key => exact .expired key

/-! ### Tokens come from `github_start` and cookies match -/

lemma stateKey_injective : Function.Injective stateKey := by
  intro t t' h
  unfold stateKey at h
  exact (String.append_right_inj _).1 h

/-- What holds in every run: a callback that was not refused carries its token twice, and a
token that is in Redis or that a callback has found was issued. -/
structure Traced (s : OAuth) : Prop where
  bound : ∀ c ∈ s.callbacks, (∀ err, c.stage ≠ .refused err) → c.Bound
  keys : ∀ t, stateKey t ∈ s.keys → t ∈ s.issued
  found : ∀ c ∈ s.callbacks, c.stage = .deleting ∨ c.stage.accepted = true → c.token ∈ s.issued

section Steps

variable {quiet : Prop} {s s' : OAuth}

lemma Traced.delKey (h : Traced s) (key : String) : Traced (s.delKey key) where
  bound := h.bound
  keys := fun t ht => h.keys t (List.mem_of_mem_filter ht)
  found := h.found

lemma Traced.setStage (h : Traced s) {i : ℕ} {c : Callback} (hi : s.callbacks[i]? = some c)
    {stage : CallbackStage} (hc : ∀ err, c.stage ≠ .refused err)
    (hfound : stage = .deleting ∨ stage.accepted = true →
      c.token ∈ s.issued) :
    Traced (s.setStage i c stage) := by
  have hbound := h.bound c (List.mem_of_getElem? hi) hc
  refine ⟨?_, h.keys, ?_⟩
  · intro c' hc' hstage
    rcases List.mem_or_eq_of_mem_set hc' with hc' | rfl
    · exact h.bound c' hc' hstage
    · exact ⟨hbound.query, hbound.cookie⟩
  · intro c' hc' hstage
    rcases List.mem_or_eq_of_mem_set hc' with hc' | rfl
    · exact h.found c' hc' hstage
    · exact hfound hstage

lemma Traced.moved (h : Traced s) (hmove : Moved quiet s s') : Traced s' := by
  have hfound : ∀ {i : ℕ} {c : Callback}, s.callbacks[i]? = some c →
      c.stage = .deleting ∨ c.stage.accepted = true → c.token ∈ s.issued :=
    fun hi => h.found _ (List.mem_of_getElem? hi)
  cases hmove with
  | idle => exact h
  | @issued t hfree =>
      refine ⟨h.bound, ?_, fun c hc hstage => List.mem_cons_of_mem _ (h.found c hc hstage)⟩
      intro t' ht'
      rcases List.mem_cons.1 ht' with heq | hmem
      · exact List.mem_cons.2 (.inl (stateKey_injective heq))
      · exact List.mem_cons_of_mem _ (h.keys t' hmem)
  | expired key => exact h.delKey key
  | @arrived c hbound hstage =>
      refine ⟨?_, h.keys, ?_⟩
      · intro c' hc' hc'stage
        rcases List.mem_append.1 hc' with hc' | hc'
        · exact h.bound c' hc' hc'stage
        · obtain rfl := List.mem_singleton.1 hc'
          rcases hstage with hstage | ⟨err, hstage⟩
          · exact hbound hstage
          · exact absurd hstage (hc'stage err)
      · intro c' hc' hc'stage
        rcases List.mem_append.1 hc' with hc' | hc'
        · exact h.found c' hc' hc'stage
        · -- a callback that has just arrived has found nothing
          obtain rfl := List.mem_singleton.1 hc'
          rcases hstage with hstage | ⟨err, hstage⟩ <;>
            simp [CallbackStage.accepted, hstage] at hc'stage
  | found hi hc hkey hquiet =>
      exact h.setStage hi (by simp [hc]) fun _ => h.keys _ hkey
  | refused hi hc err =>
      refine h.setStage hi ?_ (by simp [CallbackStage.accepted])
      rcases hc with hc | hc <;> simp [hc]
  | lost hi hc err =>
      exact (h.delKey _).setStage hi (by simp [hc]) (by simp [CallbackStage.accepted])
  | accepted hi hc =>
      exact (h.delKey _).setStage hi (by simp [hc]) fun _ => hfound hi (.inl hc)
  | exchanged hi hc outcome =>
      refine h.setStage hi (by simp [hc]) fun _ => hfound hi (.inr ?_)
      rw [hc]
      rfl

/-! ### One holder of each token -/

/-- The token is in Redis, or a callback has found it and not yet deleted it. -/
def Usable (s : OAuth) (t : String) : Prop := stateKey t ∈ s.keys ∨ 0 < s.deletingCount t

instance (s : OAuth) (t : String) : Decidable (s.Usable t) :=
  inferInstanceAs (Decidable (stateKey t ∈ s.keys ∨ 0 < s.deletingCount t))

/-- At most one callback holds the token, and each issue of it pays for one acceptance or for
its being usable. -/
structure Paid (s : OAuth) (t : String) : Prop where
  one : s.deletingCount t ≤ 1
  le : s.acceptedCount t + (if s.Usable t then 1 else 0) ≤ s.issued.count t

lemma deletingCount_setStage {i : ℕ} {c : Callback} (hi : s.callbacks[i]? = some c)
    (stage : CallbackStage) (t : String) :
    (s.setStage i c stage).deletingCount t +
        (if c.stage = .deleting ∧ c.token = t then 1 else 0) =
      s.deletingCount t + if stage = .deleting ∧ c.token = t then 1 else 0 := by
  have h := Machine.countP_set_add (p := fun c => c.stage = .deleting ∧ c.token = t) hi
    { c with stage := stage }
  simp only [decide_eq_true_eq] at h
  exact h

lemma acceptedCount_setStage {i : ℕ} {c : Callback} (hi : s.callbacks[i]? = some c)
    (stage : CallbackStage) (t : String) :
    (s.setStage i c stage).acceptedCount t +
        (if c.stage.accepted = true ∧ c.token = t then 1 else 0) =
      s.acceptedCount t + if stage.accepted = true ∧ c.token = t then 1 else 0 := by
  have h := Machine.countP_set_add (p := fun c => c.stage.accepted ∧ c.token = t) hi
    { c with stage := stage }
  simp only [decide_eq_true_eq] at h
  exact h

/-- A change of stage that neither finds nor accepts a token. -/
lemma acceptedCount_setStage_of_eq {i : ℕ} {c : Callback} (hi : s.callbacks[i]? = some c)
    {stage : CallbackStage} (hstage : stage.accepted = c.stage.accepted) (t : String) :
    (s.setStage i c stage).acceptedCount t = s.acceptedCount t := by
  have h := acceptedCount_setStage hi stage t
  rw [hstage] at h
  exact Nat.add_right_cancel h

lemma deletingCount_setStage_le {i : ℕ} {c : Callback} (hi : s.callbacks[i]? = some c)
    {stage : CallbackStage} (hstage : stage ≠ .deleting) (t : String) :
    (s.setStage i c stage).deletingCount t ≤ s.deletingCount t := by
  have h := deletingCount_setStage hi stage t
  rw [if_neg (fun h => hstage h.1 : ¬ (stage = .deleting ∧ c.token = t))] at h
  omega

lemma stateKey_mem_delKey {key t : String} :
    stateKey t ∈ (s.delKey key).keys ↔ stateKey t ∈ s.keys ∧ stateKey t ≠ key := by
  simp [OAuth.delKey]

/-- Taking the key away, or ending a wait for it, costs nothing. -/
lemma Paid.mono {t : String} (h : Paid s t) (hone : s'.deletingCount t ≤ s.deletingCount t)
    (haccepted : s'.acceptedCount t = s.acceptedCount t) (hissued : s'.issued = s.issued)
    (hkeys : stateKey t ∈ s'.keys → stateKey t ∈ s.keys) : Paid s' t := by
  have husable : s'.Usable t → s.Usable t := by
    rintro (hkey | hpos)
    · exact .inl (hkeys hkey)
    · exact .inr (by omega)
  refine ⟨hone.trans h.one, ?_⟩
  rw [haccepted, hissued]
  refine le_trans ?_ h.le
  split_ifs with h₁ h₂ h₂
  · exact le_rfl
  · exact absurd (husable h₁) h₂
  · omega
  · exact le_rfl

/-- A new key is paid for by its issue. -/
lemma Paid.issue {t : String} (h : Paid s t) (t' : String) :
    Paid { s with keys := stateKey t' :: s.keys, issued := t' :: s.issued } t := by
  by_cases ht : t' = t
  · subst ht
    have hle := h.le
    refine ⟨h.one, ?_⟩
    -- one more issue, and at most one more use for it
    show s.acceptedCount t' + (if _ then 1 else 0) ≤ (t' :: s.issued).count t'
    rw [List.count_cons_self]
    split_ifs at hle ⊢ <;> omega
  · have husable : Usable { s with keys := stateKey t' :: s.keys, issued := t' :: s.issued } t ↔
        s.Usable t := by
      show stateKey t ∈ stateKey t' :: s.keys ∨ _ ↔ _
      rw [List.mem_cons, or_iff_right fun he => ht (stateKey_injective he).symm]
      rfl
    have hle := h.le
    refine ⟨h.one, ?_⟩
    rw [List.count_cons_of_ne ht]
    show s.acceptedCount t + (if _ then 1 else 0) ≤ _
    rwa [if_congr husable rfl rfl]

/-- A callback that finds the token holds it alone. -/
lemma Paid.find {t : String} (h : Paid s t) {i : ℕ} {c : Callback}
    (hi : s.callbacks[i]? = some c) (hc : c.stage = .reading) (hkey : stateKey c.token ∈ s.keys)
    (hfree : s.deletingCount c.token = 0) : Paid (s.setStage i c .deleting) t := by
  have hacc : (s.setStage i c .deleting).acceptedCount t = s.acceptedCount t :=
    acceptedCount_setStage_of_eq hi (by rw [hc]; rfl) t
  have hdel := deletingCount_setStage hi .deleting t
  rw [if_neg (by simp [hc])] at hdel
  by_cases ht : c.token = t
  · subst ht
    -- the key is there, so the token was usable before and its issue is still unspent
    rw [if_pos ⟨rfl, rfl⟩] at hdel
    have hle := h.le
    rw [if_pos (.inl hkey)] at hle
    refine ⟨by omega, ?_⟩
    rw [hacc]
    refine le_trans ?_ hle
    split_ifs <;> omega
  · rw [if_neg fun h => ht h.2] at hdel
    exact h.mono hdel.le hacc rfl id

/-- The acceptance of a token uses up what made it usable. -/
lemma Paid.accept {t : String} (h : Paid s t) {i : ℕ} {c : Callback}
    (hi : s.callbacks[i]? = some c) (hc : c.stage = .deleting) :
    Paid ((s.delKey (stateKey c.token)).setStage i c .exchanging) t := by
  have hdel := deletingCount_setStage (s := s.delKey (stateKey c.token)) hi .exchanging t
  have hacc := acceptedCount_setStage (s := s.delKey (stateKey c.token)) hi .exchanging t
  have hd : (s.delKey (stateKey c.token)).deletingCount t = s.deletingCount t := rfl
  have ha : (s.delKey (stateKey c.token)).acceptedCount t = s.acceptedCount t := rfl
  by_cases ht : c.token = t
  · subst ht
    simp only [hc, CallbackStage.accepted, and_self, if_true, reduceCtorEq, false_and, if_false,
      Bool.false_eq_true, hd, ha] at hdel hacc
    -- the callback was the only holder, and the key goes with it
    have hone := h.one
    have hle := h.le
    rw [if_pos (.inr (by omega))] at hle
    refine ⟨by omega, ?_⟩
    rw [if_neg]
    · exact hacc.le.trans hle
    · rintro (hkey | hpos)
      · exact (stateKey_mem_delKey.1 hkey).2 rfl
      · omega
  · simp only [ht, and_false, if_false, add_zero, hd, ha] at hdel hacc
    exact h.mono hdel.le hacc rfl fun hkey => (stateKey_mem_delKey.1 hkey).1

lemma Paid.moved {t : String} (h : Paid s t) (hmove : Moved quiet s s') (hquiet : quiet) :
    Paid s' t := by
  have hkeys : ∀ {key}, stateKey t ∈ (s.delKey key).keys → stateKey t ∈ s.keys :=
    fun hkey => (stateKey_mem_delKey.1 hkey).1
  cases hmove with
  | idle => exact h
  | @issued t' hfree => exact h.issue t'
  | expired key => exact h.mono le_rfl rfl rfl hkeys
  | @arrived c hbound hstage =>
      have hcount : ∀ p : Callback → Bool, p c = false →
          (s.callbacks ++ [c]).countP p = s.callbacks.countP p := by
        intro p hp
        simp [List.countP_append, hp]
      have hnone : c.stage ≠ .deleting ∧ c.stage.accepted = false := by
        rcases hstage with hstage | ⟨err, hstage⟩ <;> simp [CallbackStage.accepted, hstage]
      exact h.mono (hcount _ (by simp [hnone.1])).le (hcount _ (by simp [hnone.2])) rfl id
  | found hi hc hkey hfree => exact h.find hi hc hkey (hfree hquiet)
  | refused hi hc err =>
      refine h.mono (deletingCount_setStage_le hi (by simp) t)
        (acceptedCount_setStage_of_eq hi ?_ t) rfl id
      rcases hc with hc | hc <;> rw [hc] <;> rfl
  | lost hi hc err =>
      refine h.mono (deletingCount_setStage_le (s := s.delKey _) hi (by simp) t)
        (acceptedCount_setStage_of_eq (s := s.delKey _) hi ?_ t) rfl hkeys
      rw [hc]
      rfl
  | accepted hi hc => exact h.accept hi hc
  | exchanged hi hc outcome =>
      refine h.mono (deletingCount_setStage_le hi ?_ t)
        (acceptedCount_setStage_of_eq hi ?_ t) rfl id
      · cases outcome <;> exact nofun
      · rw [hc]
        cases outcome <;> rfl

end Steps

/-! ### Runs -/

/-- What the flow is to guarantee: no token is accepted more often than it was issued, and
whatever is accepted was issued and came with its cookie. -/
structure SingleUse (s : OAuth) : Prop where
  once : ∀ t, s.acceptedCount t ≤ s.issued.count t
  issued : ∀ c ∈ s.callbacks, c.stage.accepted = true → c.token ∈ s.issued
  bound : ∀ c ∈ s.callbacks, c.stage.accepted = true → c.Bound

lemma traced_stateAt (config : OAuthConfig) (ms : List OAuthMove) (k : ℕ) :
    Traced (stateAt config ms k) := by
  refine Machine.before_induction (exec config) (fun _ s => Traced s) ?_ ?_ (fun _ _ h => h) k
  · exact ⟨fun _ h => absurd h List.not_mem_nil, fun _ h => absurd h List.not_mem_nil,
      fun _ h => absurd h List.not_mem_nil⟩
  · intro k m _ h
    exact h.moved (moved_exec config _ m)

lemma paid_stateAt {config : OAuthConfig} {ms : List OAuthMove}
    (hquiet : ∀ k m, ms[k]? = some m → Uncontended (stateAt config ms k) m) (t : String) (k : ℕ) :
    Paid (stateAt config ms k) t := by
  refine Machine.before_induction (exec config) (fun _ s => Paid s t) ?_ ?_ (fun _ _ h => h) k
  · exact ⟨by simp [deletingCount, empty], by simp [acceptedCount, Usable, deletingCount, empty]⟩
  · intro k m hm h
    exact h.moved (moved_exec config _ m) (hquiet k m hm)

/-- **Single use.**  In every run in which no callback looks a token up while another one has
found it and not yet deleted it, each issue of a token is accepted from at most one callback,
and nothing else is accepted. -/
theorem oauth_state_single_use {config : OAuthConfig} {ms : List OAuthMove}
    (hquiet : ∀ k m, ms[k]? = some m → Uncontended (stateAt config ms k) m) (k : ℕ) :
    SingleUse (stateAt config ms k) := by
  have htraced := traced_stateAt config ms k
  refine ⟨?_, ?_, ?_⟩
  · intro t
    have hle := (paid_stateAt hquiet t k).le
    omega
  · intro c hc haccepted
    exact htraced.found c hc (.inr haccepted)
  · intro c hc haccepted
    refine htraced.bound c hc fun err hstage => ?_
    rw [hstage] at haccepted
    exact nomatch haccepted

namespace Sample

/-- A configured server. -/
def config : OAuthConfig where
  clientId := some "client"
  clientSecret := some "secret"
  redirectUrl := some "https://localhost/admin/oauth/github/callback"
  cookieSecure := true
  redis := true

/-- The bytes that `github_start` draws. -/
def bytes : Bytes := List.replicate 32 0

/-- The token. -/
def token : String := generateStateToken bytes

/-- The callback of the browser. -/
def request : CallbackRequest := returning bytes "code"

/-- The callback arrives, is accepted, and arrives again. -/
def sequential : List OAuthMove :=
  [.start bytes .answered, .arrive request, .get 0 true, .del 0 .answered, .arrive request,
    .get 1 true]

/-- The callback arrives twice, and both look the token up before one deletes it. -/
def racing : List OAuthMove :=
  [.start bytes .answered, .arrive request, .arrive request, .get 0 true, .get 1 true,
    .del 0 .answered, .del 1 .answered]

lemma configured : Configured config := ⟨rfl, rfl, rfl, rfl⟩

lemma check : checkCallback config request = .ok token :=
  checkCallback_returning configured (by simp [bytes]) "code"

lemma token_request (stage : CallbackStage) : Callback.token ⟨request, stage⟩ = token := rfl

lemma run_start : exec config empty (.start bytes .answered) = ⟨[stateKey token], [], [token]⟩ :=
  exec_start configured (by simp [empty])

lemma sequential_two : stateAt config sequential 2 =
    ⟨[stateKey token], [⟨request, .reading⟩], [token]⟩ := by
  simp only [stateAt, Machine.before, sequential, List.take, Machine.run_cons, Machine.run_nil]
  rw [run_start, exec_arrive check]
  rfl

lemma sequential_five : stateAt config sequential 5 =
    ⟨[], [⟨request, .exchanging⟩, ⟨request, .reading⟩], [token]⟩ := by
  have hrun : stateAt config sequential 5 =
      Machine.run (exec config) (stateAt config sequential 2)
        [.get 0 true, .del 0 .answered, .arrive request] :=
    Machine.run_append (exec config) empty (sequential.take 2) _
  rw [hrun, sequential_two]
  simp only [Machine.run_cons, Machine.run_nil]
  rw [exec_get request rfl (by simp [token_request]), exec_del request rfl, exec_arrive check]
  simp [setStage, delKey, token_request]

lemma sequential_uncontended (k : ℕ) (m : OAuthMove) (hm : sequential[k]? = some m) :
    Uncontended (stateAt config sequential k) m := by
  match k with
  | 0 | 1 | 3 | 4 =>
      obtain rfl := Option.some.inj hm
      trivial
  | 2 =>
      obtain rfl := Option.some.inj hm
      rw [sequential_two]
      intro c _ _ c' hc' hstage
      obtain rfl := List.mem_singleton.1 hc'
      exact nomatch hstage
  | 5 =>
      obtain rfl := Option.some.inj hm
      rw [sequential_five]
      intro c _ _ c' hc' hstage
      rcases List.mem_cons.1 hc' with rfl | hc'
      · exact nomatch hstage
      · obtain rfl := List.mem_singleton.1 hc'
        exact nomatch hstage
  | k + 6 => exact nomatch hm

end Sample

theorem oauth_state_single_use_sequential :
    (stateAt Sample.config Sample.sequential 6).callbacks.map Callback.stage =
        [.exchanging, .refused (.unauthorized "invalid oauth state")] ∧
      SingleUse (stateAt Sample.config Sample.sequential 6) := by
  refine ⟨?_, oauth_state_single_use Sample.sequential_uncontended 6⟩
  rw [stateAt, Machine.before_succ (exec Sample.config)
      (rfl : Sample.sequential[5]? = some (.get 1 true)), ← stateAt, Sample.sequential_five,
    exec_get_of_not_mem Sample.request rfl (by simp)]
  rfl

/-- Two callbacks with the same token and cookie both get past the check of a token that was
issued once. -/
theorem oauth_state_accepted_twice :
    (stateAt Sample.config Sample.racing 7).acceptedCount Sample.token = 2 ∧
      (stateAt Sample.config Sample.racing 7).issued = [Sample.token] := by
  have hrun : stateAt Sample.config Sample.racing 7 =
      ⟨[], [⟨Sample.request, .exchanging⟩, ⟨Sample.request, .exchanging⟩], [Sample.token]⟩ := by
    show Machine.run (exec Sample.config) empty Sample.racing = _
    simp only [Sample.racing, Machine.run_cons, Machine.run_nil]
    rw [Sample.run_start, exec_arrive Sample.check, exec_arrive Sample.check,
      exec_get (i := 0) Sample.request rfl (by simp [Sample.token_request]),
      exec_get (i := 1) Sample.request rfl (by simp [setStage, Sample.token_request]),
      exec_del (i := 0) Sample.request rfl, exec_del (i := 1) Sample.request rfl]
    simp [setStage, delKey, Sample.token_request]
  rw [hrun]
  simp [acceptedCount, CallbackStage.accepted, Sample.token_request]

end OAuth

end Api

end Cellora
