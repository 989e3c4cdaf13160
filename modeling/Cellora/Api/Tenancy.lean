/-
# Isolation of dashboard users

Whatever a user asks of the dashboard, the rows of the other users stay as they are, and the
answers depend on the rows of the user only: the keys, the webhooks, and the logs of these
keys.  In particular the id of somebody else's row is answered like an id that no row has.

Prefixes and ids are unique across users, so a new key with a prefix or an id that is taken
is refused, whoever has it; noninterference is for draws that are unused.
-/
import Cellora.Api.Dashboard
import Cellora.Api.Lifecycle
import Cellora.Lib.Isolation

namespace Cellora

namespace Api

/-- The row belongs to the user. -/
def ownsKey (user : Uuid) (row : ApiKey) : Bool := row.userId == user

/-- The row belongs to the user. -/
def ownsWebhook (user : Uuid) (row : Webhook) : Bool := row.userId == user

namespace Dashboard

/-- What a user owns: keys, webhooks, and the logs of the keys. -/
def view (user : Uuid) (db : Dashboard) : List ApiKey × List Webhook × List ApiRequestLog :=
  (db.apiKeys.filter (ownsKey user), db.webhooks.filter (ownsWebhook user), logsOfUser user db)

/-- The rows of everybody else, with all logs. -/
def others (user : Uuid) (db : Dashboard) :
    List ApiKey × List Webhook × List ApiRequestLog :=
  (db.apiKeys.filter fun r => !ownsKey user r, db.webhooks.filter fun r => !ownsWebhook user r,
    db.apiRequestLogs)

/-- The foreign key of `api_request_logs`. -/
def LogKeys (db : Dashboard) : Prop :=
  ∀ l ∈ db.apiRequestLogs, l.apiKeyId ∈ db.apiKeys.map ApiKey.id

instance (db : Dashboard) : Decidable (LogKeys db) :=
  inferInstanceAs (Decidable (∀ l ∈ db.apiRequestLogs, l.apiKeyId ∈ db.apiKeys.map ApiKey.id))

/-- The prefix that a request generates. -/
def drawnPrefix (draw : Draw) : String := "cell" ++ "_" ++ Hex.encode draw.key.prefixBytes

/-- What a request generates is unused. -/
def Unused (db : Dashboard) (draw : Draw) : DashboardRequest → Prop
  | .createKey _ =>
      drawnPrefix draw ∉ db.apiKeys.map ApiKey.keyPrefix ∧ draw.id ∉ db.apiKeys.map ApiKey.id
  | .rotateKey _ => drawnPrefix draw ∉ db.apiKeys.map ApiKey.keyPrefix
  | .createWebhook _ => draw.id ∉ db.webhooks.map Webhook.id
  | _ => True

end Dashboard

/-! ### What a request changes -/

section Keys

variable {L : DashboardLib} {user : Uuid} {draw : Draw} {rows rows₁ rows₂ : List ApiKey}

/-- What a request does to `api_keys`: it adds a row of the user, or updates rows of the user
and keeps their ids. -/
inductive KeysChanged (user : Uuid) (rows : List ApiKey) : List ApiKey → Prop
  | same : KeysChanged user rows rows
  | inserted {row : ApiKey} (huser : row.userId = user) (hid : row.id ∉ rows.map ApiKey.id) :
      KeysChanged user rows (rows ++ [row])
  | updated {f : ApiKey → ApiKey} (hid : ∀ r, (f r).id = r.id)
      (huser : ∀ r, (f r).userId = r.userId) (hkeep : ∀ r, ownsKey user r = false → f r = r) :
      KeysChanged user rows (rows.map f)

lemma KeysChanged.others {rows' : List ApiKey} (h : KeysChanged user rows rows') :
    rows'.filter (fun r => !ownsKey user r) = rows.filter fun r => !ownsKey user r := by
  cases h with
  | same => rfl
  | inserted huser hid => simp [ownsKey, huser]
  | updated hid huser hkeep =>
      refine Isolation.filter_not_map (fun r => ?_) hkeep
      rw [ownsKey, ownsKey, huser]

/-- No id is lost. -/
lemma KeysChanged.ids {rows' : List ApiKey} (h : KeysChanged user rows rows') {id : Uuid}
    (hid : id ∈ rows.map ApiKey.id) : id ∈ rows'.map ApiKey.id := by
  cases h with
  | same => exact hid
  | inserted huser hfresh =>
      rw [List.map_append]
      exact List.mem_append_left _ hid
  | updated hids huser hkeep =>
      rw [List.map_map, show ApiKey.id ∘ _ = ApiKey.id from funext hids]
      exact hid

/-- No id that was there changes its owner. -/
lemma KeysChanged.ownIds {rows' : List ApiKey} (h : KeysChanged user rows rows') {id : Uuid}
    (hid : id ∈ rows.map ApiKey.id) :
    id ∈ (rows'.filter (ownsKey user)).map ApiKey.id ↔
      id ∈ (rows.filter (ownsKey user)).map ApiKey.id := by
  cases h with
  | same => rfl
  | @inserted row huser hfresh =>
      -- an id that was there is not the one of the new row
      have hne : id ≠ row.id := fun he => hfresh (he ▸ hid)
      simp [ownsKey, huser, hne]
  | updated hids huser hkeep =>
      rw [Isolation.filter_map fun r => by rw [ownsKey, ownsKey, huser], List.map_map,
        show ApiKey.id ∘ _ = ApiKey.id from funext hids]

/-- A statement changes a table only to what it results in. -/
lemma execute_changes {α β : Type} {P : List α → Prop} (reply : StatementReply)
    {result : Except DbError (β × List α)} {rows : List α} (hsame : P rows)
    (hresult : ∀ b rows', result = .ok (b, rows') → P rows') :
    P (reply.execute result rows).2 := by
  rcases result with err | ⟨b, rows'⟩
  · cases reply <;> exact hsame
  · cases reply with
    | answered => exact hresult b rows' rfl
    | lost message => exact hresult b rows' rfl
    | failed message => exact hsame

lemma keysChanged_createKey (body : CreateKeyRequest) :
    KeysChanged user rows (createKey L user draw body rows).2 := by
  rw [createKey]
  split
  · exact .same
  · refine execute_changes draw.reply .same fun row rows' hinsert => ?_
    obtain ⟨rfl, rfl, hid, -⟩ := ApiKeys.insert_eq_ok hinsert
    exact .inserted rfl hid

lemma keysChanged_rotateKey (raw : String) :
    KeysChanged user rows (rotateKey L user draw raw rows).2 := by
  rw [rotateKey]
  split
  · exact .same
  · exact .same
  · refine execute_changes draw.reply .same fun row rows' hrotate => ?_
    cases row with
    | none =>
        rw [ApiKeys.rotateForUser_eq_none hrotate]
        exact .same
    | some row =>
        rw [(ApiKeys.rotateForUser_eq_some hrotate).2.2]
        refine .updated (fun r => ?_) (fun r => ?_) fun r hr => if_neg fun hrotates => ?_
        · split <;> rfl
        · split <;> rfl
        · have howns := beq_iff_eq.2 (ApiKeys.rotates_iff.1 hrotates).2.1
          rw [ownsKey, howns] at hr
          exact nomatch hr

lemma keysChanged_revokeKey (raw : String) :
    KeysChanged user rows (revokeKey L user draw raw rows).2 := by
  rw [revokeKey]
  split
  · exact .same
  · refine execute_changes draw.reply .same fun revoked rows' hrevoke => ?_
    obtain ⟨-, rfl⟩ := Prod.mk.inj (Except.ok.inj hrevoke)
    refine .updated (fun r => ?_) (fun r => ?_) fun r hr => if_neg fun hrevokes => ?_
    · split <;> rfl
    · split <;> rfl
    · rw [ownsKey] at hr
      simp [hr] at hrevokes

end Keys

section Webhooks

variable {L : UuidLib} {user : Uuid} {reply : StatementReply} {rows : List Webhook}

/-- What a request does to `webhooks`: it adds a row of the user, or removes rows of the
user. -/
lemma others_createWebhook (parse : String → Option ParsedUrl)
    (lookupHost : String → ℕ → Option (List IpAddr)) (now : ℕ) (id : Uuid)
    (req : CreateWebhookRequest) :
    (createWebhook L parse lookupHost user now id reply req rows).2.filter
        (fun r => !ownsWebhook user r) =
      rows.filter fun r => !ownsWebhook user r := by
  rw [createWebhook]
  split_ifs
  · rfl
  · split
    · rfl
    · refine execute_changes (P := fun rows' => rows'.filter (fun r => !ownsWebhook user r) =
        rows.filter fun r => !ownsWebhook user r) reply rfl fun row rows' hinsert => ?_
      rw [Webhooks.insert] at hinsert
      split_ifs at hinsert
      obtain ⟨rfl, rfl⟩ := Prod.mk.inj (Except.ok.inj hinsert)
      simp [ownsWebhook]

lemma others_deleteWebhook (raw : String) :
    (deleteWebhook L user reply raw rows).2.filter (fun r => !ownsWebhook user r) =
      rows.filter fun r => !ownsWebhook user r := by
  rw [deleteWebhook]
  split
  · rfl
  · rename_i id _
    refine execute_changes (P := fun rows' => rows'.filter (fun r => !ownsWebhook user r) =
      rows.filter fun r => !ownsWebhook user r) reply rfl fun affected rows' hdelete => ?_
    obtain ⟨-, rfl⟩ := Prod.mk.inj (Except.ok.inj hdelete)
    rw [List.filter_filter]
    refine List.filter_congr fun r _ => ?_
    cases hown : ownsWebhook user r with
    | true => rfl
    | false =>
        rw [ownsWebhook] at hown
        simp [hown]

end Webhooks

namespace Dashboard

variable {L : DashboardLib} {user : Uuid}

/-- A request changes `api_keys` and `webhooks` for the user only, and no log. -/
lemma others_handle (db : Dashboard) (draw : Draw) (req : DashboardRequest) :
    others user (handle L user db draw req).2 = others user db := by
  have hkeys : ∀ {rows' : List ApiKey}, KeysChanged user db.apiKeys rows' →
      others user { db with apiKeys := rows' } = others user db := by
    intro rows' h
    simp only [others, h.others]
  -- the queries change nothing
  cases req with
  | createKey body => exact hkeys (keysChanged_createKey body)
  | rotateKey raw => exact hkeys (keysChanged_rotateKey raw)
  | revokeKey raw => exact hkeys (keysChanged_revokeKey raw)
  | createWebhook req => simp only [others, handle, others_createWebhook]
  | deleteWebhook raw => simp only [others, handle, others_deleteWebhook]
  | _ => rfl

/-- A request keeps the foreign key of the logs. -/
lemma LogKeys.handle {db : Dashboard} (h : LogKeys db) (draw : Draw) (req : DashboardRequest) :
    LogKeys (handle L user db draw req).2 := by
  have hkeys : ∀ {rows' : List ApiKey}, KeysChanged user db.apiKeys rows' →
      LogKeys { db with apiKeys := rows' } := by
    intro rows' hrows l hl
    exact hrows.ids (h l hl)
  cases req with
  | createKey body => exact hkeys (keysChanged_createKey body)
  | rotateKey raw => exact hkeys (keysChanged_rotateKey raw)
  | revokeKey raw => exact hkeys (keysChanged_revokeKey raw)
  | _ => exact h

/-- A change of the keys does not change which logs belong to the user. -/
lemma logsOfUser_of_keysChanged {db : Dashboard} (h : LogKeys db) {rows' : List ApiKey}
    (hrows : KeysChanged user db.apiKeys rows') :
    logsOfUser user { db with apiKeys := rows' } = logsOfUser user db := by
  -- the key of a log is stored, and a stored key keeps its owner
  refine List.filter_congr fun l hl => ?_
  rw [Bool.eq_iff_iff, List.contains_iff_mem, List.contains_iff_mem]
  exact hrows.ownIds (h l hl)

end Dashboard

/-! ### What the answers depend on -/

section Outcomes

variable {α β : Type} {own : α → Bool}

/-- Two statements are refused alike, or result in the same value and the same own rows. -/
inductive SameOutcome (own : α → Bool) :
    Except DbError (β × List α) → Except DbError (β × List α) → Prop
  | refused (err : DbError) : SameOutcome own (.error err) (.error err)
  | done (b : β) {rows₁ rows₂ : List α} (h : rows₁.filter own = rows₂.filter own) :
      SameOutcome own (.ok (b, rows₁)) (.ok (b, rows₂))

lemma execute_congr (reply : StatementReply) {res₁ res₂ : Except DbError (β × List α)}
    {rows₁ rows₂ : List α} (hrows : rows₁.filter own = rows₂.filter own)
    (h : SameOutcome own res₁ res₂) :
    (reply.execute res₁ rows₁).1 = (reply.execute res₂ rows₂).1 ∧
      (reply.execute res₁ rows₁).2.filter own = (reply.execute res₂ rows₂).2.filter own := by
  cases h with
  | refused err => cases reply <;> exact ⟨rfl, hrows⟩
  | done b hdone =>
      cases reply with
      | answered => exact ⟨rfl, hdone⟩
      | lost message => exact ⟨rfl, hdone⟩
      | failed message => exact ⟨rfl, hrows⟩

end Outcomes

section Keys

variable (L : DashboardLib) {user : Uuid} (draw : Draw) {rows₁ rows₂ : List ApiKey}

lemma keyPrefix_of_generateKey {issued : IssuedKey} (h : generateKey L draw = .ok issued) :
    issued.keyPrefix = Dashboard.drawnPrefix draw := by
  rw [generateKey, Keys.generate] at h
  cases hhash : L.argon2.hashPassword (Hex.encode draw.key.secretBytes) draw.key.salt with
  | error message =>
      simp only [hhash] at h
      cases h
  | ok phc =>
      simp only [hhash] at h
      rw [← Except.ok.inj h]
      rfl

lemma ownsKey_of_rotates {id : Uuid} {row : ApiKey} (h : ApiKeys.rotates id user row = true) :
    ownsKey user row = true :=
  beq_iff_eq.2 (ApiKeys.rotates_iff.1 h).2.1

lemma createKey_congr (hrows : rows₁.filter (ownsKey user) = rows₂.filter (ownsKey user))
    (body : CreateKeyRequest)
    (h₁ : Dashboard.drawnPrefix draw ∉ rows₁.map ApiKey.keyPrefix ∧ draw.id ∉ rows₁.map ApiKey.id)
    (h₂ : Dashboard.drawnPrefix draw ∉ rows₂.map ApiKey.keyPrefix ∧ draw.id ∉ rows₂.map ApiKey.id) :
    (createKey L user draw body rows₁).1 = (createKey L user draw body rows₂).1 ∧
      (createKey L user draw body rows₁).2.filter (ownsKey user) =
        (createKey L user draw body rows₂).2.filter (ownsKey user) := by
  rw [createKey, createKey]
  cases hgenerate : generateKey L draw with
  | error err => exact ⟨rfl, hrows⟩
  | ok issued =>
      rw [← keyPrefix_of_generateKey L draw hgenerate] at h₁ h₂
      have hsame : SameOutcome (ownsKey user)
          (ApiKeys.insert draw.now draw.id user issued.keyPrefix issued.secretHash
            (body.tier.getD .free) (keyLabel body.label) rows₁)
          (ApiKeys.insert draw.now draw.id user issued.keyPrefix issued.secretHash
            (body.tier.getD .free) (keyLabel body.label) rows₂) := by
        -- nothing is taken, so both tables accept the row
        rw [ApiKeys.insert, ApiKeys.insert, if_neg h₁.2, if_neg h₁.1, if_neg h₂.2, if_neg h₂.1]
        refine .done _ ?_
        rw [List.filter_append, List.filter_append, hrows]
      obtain ⟨hanswer, hown⟩ := execute_congr draw.reply hrows hsame
      exact ⟨congrArg (Except.map _) hanswer, hown⟩

lemma rotateForUser_congr (hrows : rows₁.filter (ownsKey user) = rows₂.filter (ownsKey user))
    {newPrefix : String} (h₁ : newPrefix ∉ rows₁.map ApiKey.keyPrefix)
    (h₂ : newPrefix ∉ rows₂.map ApiKey.keyPrefix) (id : Uuid) (newSecretHash : String) :
    SameOutcome (ownsKey user) (ApiKeys.rotateForUser id user newPrefix newSecretHash rows₁)
      (ApiKeys.rotateForUser id user newPrefix newSecretHash rows₂) := by
  -- the row to rotate is one of the user's, so both tables have it or neither does
  have hfind : rows₁.find? (ApiKeys.rotates id user) = rows₂.find? (ApiKeys.rotates id user) := by
    have himp : ∀ r, ApiKeys.rotates id user r = true → ownsKey user r = true :=
      fun _ => ownsKey_of_rotates
    rw [← Isolation.find?_filter_of_imp himp, hrows, Isolation.find?_filter_of_imp himp]
  have hfree : ∀ {rows : List ApiKey}, newPrefix ∉ rows.map ApiKey.keyPrefix →
      newPrefix ∉ (rows.filter fun r => r.id ≠ id).map ApiKey.keyPrefix := by
    intro rows h hmem
    obtain ⟨r, hr, rfl⟩ := List.mem_map.1 hmem
    exact h (List.mem_map_of_mem (List.mem_of_mem_filter hr))
  rw [ApiKeys.rotateForUser, ApiKeys.rotateForUser, hfind]
  cases hrow : rows₂.find? (ApiKeys.rotates id user) with
  | none => exact .done none hrows
  | some row =>
      simp only [if_neg (hfree h₁), if_neg (hfree h₂)]
      refine .done _ ?_
      have howner : ∀ r, ownsKey user (if ApiKeys.rotates id user r then
          { r with keyPrefix := newPrefix, secretHash := newSecretHash, lastUsedAt := none }
          else r) = ownsKey user r := by
        intro r
        split <;> rfl
      rw [Isolation.filter_map howner, Isolation.filter_map howner, hrows]

lemma rotateKey_congr (hrows : rows₁.filter (ownsKey user) = rows₂.filter (ownsKey user))
    (raw : String) (h₁ : Dashboard.drawnPrefix draw ∉ rows₁.map ApiKey.keyPrefix)
    (h₂ : Dashboard.drawnPrefix draw ∉ rows₂.map ApiKey.keyPrefix) :
    (rotateKey L user draw raw rows₁).1 = (rotateKey L user draw raw rows₂).1 ∧
      (rotateKey L user draw raw rows₁).2.filter (ownsKey user) =
        (rotateKey L user draw raw rows₂).2.filter (ownsKey user) := by
  rw [rotateKey, rotateKey]
  cases parseUuid L raw with
  | error err => exact ⟨rfl, hrows⟩
  | ok id =>
      cases hgenerate : generateKey L draw with
      | error err => exact ⟨rfl, hrows⟩
      | ok issued =>
          rw [← keyPrefix_of_generateKey L draw hgenerate] at h₁ h₂
          obtain ⟨hanswer, hown⟩ := execute_congr draw.reply hrows
            (rotateForUser_congr hrows h₁ h₂ id issued.secretHash)
          exact ⟨congrArg (· >>= _) hanswer, hown⟩

lemma revokeKey_congr (hrows : rows₁.filter (ownsKey user) = rows₂.filter (ownsKey user))
    (raw : String) :
    (revokeKey L user draw raw rows₁).1 = (revokeKey L user draw raw rows₂).1 ∧
      (revokeKey L user draw raw rows₁).2.filter (ownsKey user) =
        (revokeKey L user draw raw rows₂).2.filter (ownsKey user) := by
  rw [revokeKey, revokeKey]
  cases parseUuid L raw with
  | error err => exact ⟨rfl, hrows⟩
  | ok id =>
      have himp : ∀ r : ApiKey, ((r.id == id && r.userId == user) && !r.isRevoked) = true →
          ownsKey user r = true := by
        intro r hr
        simp only [Bool.and_eq_true] at hr
        exact hr.1.2
      have hsame : SameOutcome (ownsKey user)
          (.ok (ApiKeys.revokeForUser id user draw.now rows₁))
          (.ok (ApiKeys.revokeForUser id user draw.now rows₂)) := by
        -- whether a row is revoked is decided among the user's rows
        rw [ApiKeys.revokeForUser, ApiKeys.revokeWhere, ApiKeys.revokeWhere,
          ← Isolation.any_filter_of_imp himp, hrows, Isolation.any_filter_of_imp himp]
        refine .done _ ?_
        have howner : ∀ r : ApiKey, ownsKey user
            (if (r.id == id && r.userId == user) && !r.isRevoked then
              { r with revokedAt := some draw.now } else r) = ownsKey user r := by
          intro r
          split <;> rfl
        rw [Isolation.filter_map howner, Isolation.filter_map howner, hrows]
      obtain ⟨hanswer, hown⟩ := execute_congr draw.reply hrows hsame
      exact ⟨congrArg (· >>= _) hanswer, hown⟩

end Keys

section Webhooks

variable (L : UuidLib) {user : Uuid} (reply : StatementReply) {rows₁ rows₂ : List Webhook}

lemma createWebhook_congr
    (hrows : rows₁.filter (ownsWebhook user) = rows₂.filter (ownsWebhook user))
    (parse : String → Option ParsedUrl) (lookupHost : String → ℕ → Option (List IpAddr))
    (now : ℕ) {id : Uuid} (h₁ : id ∉ rows₁.map Webhook.id) (h₂ : id ∉ rows₂.map Webhook.id)
    (req : CreateWebhookRequest) :
    (createWebhook L parse lookupHost user now id reply req rows₁).1 =
        (createWebhook L parse lookupHost user now id reply req rows₂).1 ∧
      (createWebhook L parse lookupHost user now id reply req rows₁).2.filter
          (ownsWebhook user) =
        (createWebhook L parse lookupHost user now id reply req rows₂).2.filter
          (ownsWebhook user) := by
  rw [createWebhook, createWebhook]
  split_ifs
  · exact ⟨rfl, hrows⟩
  · cases validateWebhookUrl parse lookupHost req.url with
    | error reason => exact ⟨rfl, hrows⟩
    | ok _ =>
        have hsame : SameOutcome (ownsWebhook user)
            (Webhooks.insert now id user req.url req.events req.secret rows₁)
            (Webhooks.insert now id user req.url req.events req.secret rows₂) := by
          rw [← List.contains_iff_mem] at h₁ h₂
          rw [Webhooks.insert, Webhooks.insert, if_neg h₁, if_neg h₂]
          refine .done _ ?_
          rw [List.filter_append, List.filter_append, hrows]
        obtain ⟨hanswer, hown⟩ := execute_congr reply hrows hsame
        exact ⟨congrArg (Except.map _) hanswer, hown⟩

lemma deleteWebhook_congr
    (hrows : rows₁.filter (ownsWebhook user) = rows₂.filter (ownsWebhook user)) (raw : String) :
    (deleteWebhook L user reply raw rows₁).1 = (deleteWebhook L user reply raw rows₂).1 ∧
      (deleteWebhook L user reply raw rows₁).2.filter (ownsWebhook user) =
        (deleteWebhook L user reply raw rows₂).2.filter (ownsWebhook user) := by
  rw [deleteWebhook, deleteWebhook]
  cases L.parseStr raw with
  | none => exact ⟨rfl, hrows⟩
  | some id =>
      have himp : ∀ r : Webhook, (r.id == id && r.userId == user) = true →
          ownsWebhook user r = true := by
        intro r hr
        exact (Bool.and_eq_true _ _ ▸ hr).2
      have hcount : ∀ rows : List Webhook, rows.countP (fun r => r.id == id && r.userId == user) =
          (rows.filter (ownsWebhook user)).countP fun r => r.id == id && r.userId == user := by
        intro rows
        rw [List.countP_eq_length_filter, List.countP_eq_length_filter,
          Isolation.filter_filter_of_imp himp]
      have hsame : SameOutcome (ownsWebhook user) (.ok (Webhooks.deleteForUser id user rows₁))
          (.ok (Webhooks.deleteForUser id user rows₂)) := by
        rw [Webhooks.deleteForUser, Webhooks.deleteForUser, hcount rows₁, hcount rows₂, hrows]
        refine .done _ ?_
        rw [List.filter_comm, hrows, List.filter_comm]
      obtain ⟨hanswer, hown⟩ := execute_congr reply hrows hsame
      exact ⟨congrArg (· >>= _) hanswer, hown⟩

end Webhooks

namespace Dashboard

variable {L : DashboardLib} {user : Uuid}

/-- The join with the logs finds the logs of the user. -/
lemma logsWithKey_eq (db : Dashboard) :
    logsWithKey user db = (logsOfUser user db).flatMap fun l =>
      ((db.apiKeys.filter (ownsKey user)).filter fun k => l.apiKeyId == k.id).map
        fun k => (l, k) := by
  have hinner : ∀ l : ApiRequestLog,
      (db.apiKeys.filter fun k => l.apiKeyId == k.id && k.userId == user) =
        (db.apiKeys.filter (ownsKey user)).filter fun k => l.apiKeyId == k.id := by
    intro l
    rw [List.filter_filter]
    rfl
  rw [logsWithKey, logsOfUser]
  simp only [hinner]
  refine (Isolation.flatMap_filter fun l hl => ?_).symm
  -- a log of somebody else's key meets no key of the user
  rw [List.map_eq_nil_iff, List.filter_eq_nil_iff]
  intro k hk hid
  rw [← Bool.not_eq_true, List.contains_iff_mem] at hl
  exact hl (List.mem_map.2 ⟨k, hk, (beq_iff_eq.1 hid).symm⟩)

lemma logsWithKey_congr {s t : Dashboard} (h : view user s = view user t) :
    logsWithKey user s = logsWithKey user t := by
  obtain ⟨hkeys, hrest⟩ := Prod.mk.inj h
  obtain ⟨-, hlogs⟩ := Prod.mk.inj hrest
  rw [logsWithKey_eq, logsWithKey_eq, hkeys, hlogs]

/-- Views agree after changes of the keys that leave the same keys to the user. -/
lemma view_setKeys {s t : Dashboard} (hs : LogKeys s) (ht : LogKeys t)
    (hview : view user s = view user t) {rows₁ rows₂ : List ApiKey}
    (h₁ : KeysChanged user s.apiKeys rows₁) (h₂ : KeysChanged user t.apiKeys rows₂)
    (hown : rows₁.filter (ownsKey user) = rows₂.filter (ownsKey user)) :
    view user { s with apiKeys := rows₁ } = view user { t with apiKeys := rows₂ } := by
  obtain ⟨-, hrest⟩ := Prod.mk.inj hview
  obtain ⟨hwebhooks, hlogs⟩ := Prod.mk.inj hrest
  rw [view, view, logsOfUser_of_keysChanged hs h₁, logsOfUser_of_keysChanged ht h₂, hlogs]
  exact Prod.ext hown (Prod.ext hwebhooks rfl)

lemma view_setWebhooks {s t : Dashboard} (hview : view user s = view user t)
    {rows₁ rows₂ : List Webhook}
    (hown : rows₁.filter (ownsWebhook user) = rows₂.filter (ownsWebhook user)) :
    view user { s with webhooks := rows₁ } = view user { t with webhooks := rows₂ } := by
  obtain ⟨hkeys, hrest⟩ := Prod.mk.inj hview
  exact Prod.ext hkeys (Prod.ext hown (Prod.mk.inj hrest).2)

/-- The answer to a request and the view after it depend on the view only. -/
lemma serve_unwinds :
    Isolation.Unwinds (serve L user) (view user) fun db m => LogKeys db ∧ Unused db m.1 m.2 := by
  rintro s t ⟨draw, req⟩ hview ⟨hs, hunused⟩ ⟨ht, hunused'⟩
  obtain ⟨hkeys, hrest⟩ := Prod.mk.inj hview
  obtain ⟨hwebhooks, hlogs⟩ := Prod.mk.inj hrest
  cases req with
  | listKeys =>
      refine ⟨?_, hview⟩
      simp only [serve, handle, listKeys, ApiKeys.listForUser]
      rw [show (s.apiKeys.filter fun row => row.userId == user) =
        t.apiKeys.filter fun row => row.userId == user from hkeys]
  | createKey body =>
      obtain ⟨hanswer, hown⟩ := createKey_congr L draw hkeys body hunused hunused'
      exact ⟨congrArg (Except.map DashboardBody.keyCreated) hanswer, view_setKeys hs ht hview
        (keysChanged_createKey body) (keysChanged_createKey body) hown⟩
  | rotateKey raw =>
      obtain ⟨hanswer, hown⟩ := rotateKey_congr L draw hkeys raw hunused hunused'
      exact ⟨congrArg (Except.map DashboardBody.keyRotated) hanswer, view_setKeys hs ht hview
        (keysChanged_rotateKey raw) (keysChanged_rotateKey raw) hown⟩
  | revokeKey raw =>
      obtain ⟨hanswer, hown⟩ := revokeKey_congr L draw hkeys raw
      exact ⟨congrArg (Except.map fun _ => DashboardBody.noContent) hanswer,
        view_setKeys hs ht hview (keysChanged_revokeKey raw) (keysChanged_revokeKey raw) hown⟩
  | listWebhooks =>
      refine ⟨?_, hview⟩
      simp only [serve, handle, listWebhooks, Webhooks.selectForUser]
      rw [show (s.webhooks.filter fun r => r.userId == user) =
        t.webhooks.filter fun r => r.userId == user from hwebhooks]
  | createWebhook req =>
      obtain ⟨hanswer, hown⟩ := createWebhook_congr L.uuid draw.reply hwebhooks
        L.parseUrl draw.lookupHost draw.now hunused hunused' req
      exact ⟨congrArg (Except.map DashboardBody.webhook) hanswer, view_setWebhooks hview hown⟩
  | deleteWebhook raw =>
      obtain ⟨hanswer, hown⟩ :=
        deleteWebhook_congr L.uuid draw.reply hwebhooks raw
      exact ⟨congrArg (Except.map fun _ => DashboardBody.null) hanswer,
        view_setWebhooks hview hown⟩
  | usage => exact ⟨by simp only [serve, handle, hlogs], hview⟩
  | summary => exact ⟨by simp only [serve, handle, hlogs], hview⟩
  | endpoints => exact ⟨by simp only [serve, handle, hlogs], hview⟩
  | activity => exact ⟨by simp only [serve, handle, logsWithKey_congr hview], hview⟩
  | rateLimits => exact ⟨by simp only [serve, handle, logsWithKey_congr hview], hview⟩

end Dashboard

/-! ### Ids the user does not own -/

section Ids

variable {L : DashboardLib} {user : Uuid} {raw : String} {id : Uuid}

/-- The answer to a rotation that finds no key. -/
lemma rotateKey_of_not_owned {rows : List ApiKey} (hraw : L.uuid.parseStr raw = some id)
    (hid : ∀ r ∈ rows, r.id = id → r.userId ≠ user) (draw : Draw) :
    rotateKey L user draw raw rows =
      ((do
        let _ ← generateKey L draw
        let _ ← draw.reply.query ()
        .error (.notFound "api key not found")), rows) := by
  have hnone : rows.find? (ApiKeys.rotates id user) = none := by
    rw [List.find?_eq_none]
    intro r hr hrotates
    obtain ⟨hrid, huser, -⟩ := ApiKeys.rotates_iff.1 hrotates
    exact hid r hr hrid huser
  rw [rotateKey, parseUuid]
  rw [hraw]
  cases generateKey L draw with
  | error err => rfl
  | ok issued =>
      simp only [ApiKeys.rotateForUser, hnone]
      cases draw.reply <;> rfl

/-- The answer to a revocation that finds no key. -/
lemma revokeKey_of_not_owned {rows : List ApiKey} (hraw : L.uuid.parseStr raw = some id)
    (hid : ∀ r ∈ rows, r.id = id → r.userId ≠ user) (draw : Draw) :
    revokeKey L user draw raw rows =
      ((do
        let _ ← draw.reply.query ()
        .error (.notFound "api key not found")), rows) := by
  have hfalse : ∀ r ∈ rows, ((r.id == id && r.userId == user) && !r.isRevoked) = false := by
    intro r hr
    by_cases hrid : r.id = id
    · simp [hid r hr hrid]
    · simp [hrid]
  have hrevoke : ApiKeys.revokeForUser id user draw.now rows = (false, rows) := by
    rw [ApiKeys.revokeForUser, ApiKeys.revokeWhere]
    refine Prod.ext (List.any_eq_false.2 fun r hr => by simp [hfalse r hr]) ?_
    conv_rhs => rw [← List.map_id rows]
    refine List.map_congr_left fun r hr => ?_
    rw [hfalse r hr]
    rfl
  rw [revokeKey, parseUuid]
  rw [hraw]
  simp only [hrevoke]
  cases draw.reply <;> rfl

/-- The answer to a deletion that finds no webhook. -/
lemma deleteWebhook_of_not_owned {L : UuidLib} {rows : List Webhook}
    (hraw : L.parseStr raw = some id) (hid : ∀ r ∈ rows, r.id = id → r.userId ≠ user)
    (reply : StatementReply) :
    deleteWebhook L user reply raw rows =
      ((do
        let _ ← reply.query ()
        .error (.notFound "webhook not found")), rows) := by
  have hfalse : ∀ r ∈ rows, (r.id == id && r.userId == user) = false := by
    intro r hr
    by_cases hrid : r.id = id
    · simp [hid r hr hrid]
    · simp [hrid]
  have hdelete : Webhooks.deleteForUser id user rows = (0, rows) := by
    rw [Webhooks.deleteForUser]
    refine Prod.ext (List.countP_eq_zero.2 fun r hr => by simp [hfalse r hr]) ?_
    exact List.filter_eq_self.2 fun r hr => by simp [hfalse r hr]
  rw [deleteWebhook]
  rw [hraw]
  simp only [hdelete]
  cases reply <;> rfl

/-- With unique ids, the id of a row of somebody else is not the id of a row of the user. -/
lemma not_owned_of_foreign {α : Type} {idOf owner : α → Uuid} {rows : List α}
    (hnd : (rows.map idOf).Nodup) (hforeign : ∃ r ∈ rows, idOf r = id ∧ owner r ≠ user) :
    ∀ r ∈ rows, idOf r = id → owner r ≠ user := by
  obtain ⟨r, hr, hrid, hne⟩ := hforeign
  intro r' hr' hid'
  rwa [List.inj_on_of_nodup_map hnd hr' hr (hid'.trans hrid.symm)]

lemma not_owned_of_unknown {α : Type} {idOf owner : α → Uuid} {rows : List α}
    (hid : id ∉ rows.map idOf) : ∀ r ∈ rows, idOf r = id → owner r ≠ user := by
  intro r hr hrid
  exact absurd (List.mem_map.2 ⟨r, hr, hrid⟩) hid

end Ids

/-! ### Isolation -/

namespace Dashboard

/-- **Isolation of users.**  Requests of a user leave the rows of everybody else as they are;
databases with the same rows of the user give the same answers, as long as what is generated
is unused; and an id of somebody else is answered like an id of nobody. -/
theorem isolates_users (L : DashboardLib) (user : Uuid) :
    (∀ db ms, others user (Isolation.final (serve L user) db ms) = others user db) ∧
    (∀ s t ms, LogKeys s → LogKeys t → view user s = view user t →
      Isolation.Along (serve L user) (fun db m => Unused db m.1 m.2) s ms →
      Isolation.Along (serve L user) (fun db m => Unused db m.1 m.2) t ms →
      Isolation.answers (serve L user) s ms = Isolation.answers (serve L user) t ms) ∧
    ∀ db draw raw raw' id id', L.uuid.parseStr raw = some id → L.uuid.parseStr raw' = some id' →
      ((db.apiKeys.map ApiKey.id).Nodup → (∃ r ∈ db.apiKeys, r.id = id ∧ r.userId ≠ user) →
        id' ∉ db.apiKeys.map ApiKey.id →
        handle L user db draw (.rotateKey raw) = handle L user db draw (.rotateKey raw') ∧
        handle L user db draw (.revokeKey raw) = handle L user db draw (.revokeKey raw')) ∧
      ((db.webhooks.map Webhook.id).Nodup → (∃ r ∈ db.webhooks, r.id = id ∧ r.userId ≠ user) →
        id' ∉ db.webhooks.map Webhook.id →
        handle L user db draw (.deleteWebhook raw) =
          handle L user db draw (.deleteWebhook raw')) := by
  refine ⟨?_, ?_, ?_⟩
  · exact Isolation.final_eq_of_step fun db m => others_handle db m.1 m.2
  · intro s t ms hs ht hview hsOk htOk
    have hinv : ∀ db m, LogKeys db → LogKeys (serve L user db m).2 :=
      fun db m h => h.handle m.1 m.2
    exact Isolation.answers_eq_of_view_eq serve_unwinds hview (hsOk.of_invariant hinv hs)
      (htOk.of_invariant hinv ht)
  · intro db draw raw raw' id id' hraw hraw'
    constructor
    · intro hnd hforeign hunknown
      have hid := not_owned_of_foreign hnd hforeign
      have hid' : ∀ r ∈ db.apiKeys, r.id = id' → r.userId ≠ user :=
        not_owned_of_unknown hunknown
      constructor
      · simp only [handle, rotateKey_of_not_owned hraw hid, rotateKey_of_not_owned hraw' hid']
      · simp only [handle, revokeKey_of_not_owned hraw hid, revokeKey_of_not_owned hraw' hid']
    · intro hnd hforeign hunknown
      have hid := not_owned_of_foreign hnd hforeign
      have hid' : ∀ r ∈ db.webhooks, r.id = id' → r.userId ≠ user :=
        not_owned_of_unknown hunknown
      simp only [handle, deleteWebhook_of_not_owned hraw hid,
        deleteWebhook_of_not_owned hraw' hid']

namespace Sample

/-- A key of the user 1. -/
def ownKey : ApiKey :=
  ⟨10, 1, "cell_a1b2c3d4", "$argon2id$", .free, some "ci", 100, none, some 130⟩

/-- A key of the user 2. -/
def otherKey : ApiKey := ⟨20, 2, "cell_0badcafe", "$argon2id$", .pro, none, 50, none, none⟩

/-- A log of each key. -/
def ownLog : ApiRequestLog := ⟨130, 10, "GET", "/v1/cells", 200, 3⟩

def otherLog : ApiRequestLog := ⟨140, 20, "POST", "/graphql", 429, 1⟩

/-- The tables with both users, and with the first only. -/
def shared : Dashboard :=
  ⟨[otherKey, ownKey], [⟨30, 2, "https://example.org/hook", ["block"], none, 60⟩],
    [otherLog, ownLog]⟩

def alone : Dashboard := ⟨[ownKey], [], [ownLog]⟩

/-- The texts of the id of the other key and of an id that nobody has. -/
def otherId : String := "00000000-0000-0000-0000-000000000014"

def unknownId : String := "00000000-0000-0000-0000-00000000002a"

def lib : DashboardLib where
  argon2 := Sample.knownArgon2
  uuid :=
    { parseStr := fun raw => if raw = otherId then some 20 else if raw = unknownId then some 42
        else none
      toString := fun id => if id = 20 then otherId else unknownId }
  parseUrl := fun _ => none

def draw : Draw := ⟨200, Sample.drawOf 0xee 0x11, 11, fun _ _ => none, .answered⟩

/-- The user creates a key and looks at the dashboard. -/
def requests : List (Draw × DashboardRequest) :=
  [(draw, .createKey ⟨some " laptop ", none⟩), (draw, .listKeys), (draw, .summary),
    (draw, .activity)]

end Sample

theorem isolates_users_sample :
    Isolation.answers (serve Sample.lib 1) Sample.shared Sample.requests =
        Isolation.answers (serve Sample.lib 1) Sample.alone Sample.requests ∧
      handle Sample.lib 1 Sample.shared Sample.draw (.rotateKey Sample.otherId) =
        handle Sample.lib 1 Sample.shared Sample.draw (.rotateKey Sample.unknownId) := by
  obtain ⟨-, hanswers, hids⟩ := isolates_users Sample.lib 1
  constructor
  · refine hanswers _ _ _ (by decide) (by decide) (by decide) ?_ ?_
    · exact ⟨⟨by decide, by decide⟩, trivial, trivial, trivial, trivial⟩
    · exact ⟨⟨by decide, by decide⟩, trivial, trivial, trivial, trivial⟩
  · exact ((hids Sample.shared Sample.draw Sample.otherId Sample.unknownId 20 42 rfl rfl).1
      (by decide) ⟨Sample.otherKey, by decide, by decide, by decide⟩ (by decide)).1

end Dashboard

end Api

end Cellora
