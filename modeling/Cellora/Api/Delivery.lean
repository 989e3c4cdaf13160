/-
# Delivery of webhooks

For each event the dispatcher posts to the webhooks that ask for it.  A delivery resolves the
host once more, refuses the answer if one of its addresses is blocked, and builds a client that
is pinned to the first address.  What the resolver answers is up to the owner of the host, and
need not be what it answered when the webhook was created.

Every address of an accepted answer passed the tests of `is_blocked_ip`, so a delivery stays
among public addresses exactly as far as these tests go (`nonPublic_iff`).
-/
import Cellora.Api.PublicAddress
import Cellora.Api.Subscription

namespace Cellora

namespace Api

/-! ### The pinned client -/

/-- `SocketAddr`. -/
structure SocketAddr where
  ip : IpAddr
  port : ℕ
deriving DecidableEq

/-- What `Client::builder` is told. -/
structure Client where
  timeoutSeconds : ℕ
  followsRedirects : Bool
  /-- The host and the addresses of `resolve_to_addrs`. -/
  host : String
  addrs : List SocketAddr
deriving DecidableEq

/-- The client of a delivery. -/
def Client.pinnedTo (host : String) (pinned : SocketAddr) : Client where
  timeoutSeconds := 5
  followsRedirects := false
  host := host
  addrs := [pinned]

/-- What a delivery uses of the crates `url`, `reqwest`, `hmac` and `serde_json`. -/
structure DeliveryLib where
  parseUrl : String → Option ParsedUrl
  /-- `ClientBuilder::build` succeeds. -/
  builds : Client → Bool
  /-- The key and the message. -/
  hmacSha256 : Bytes → Bytes → Bytes
  /-- `to_vec` of an object with the fields `event` and `data`. -/
  toVec : String → ApiEvent → Option Bytes

/-- What the resolver answers for a host and a port. -/
abbrev Resolver := String → ℕ → Option (List IpAddr)

/-- The host of a URL and the addresses `lookup_host` gives for it, in `build_pinned_client`. -/
def resolve (parse : String → Option ParsedUrl) (lookupHost : Resolver) (raw : String) :
    Except String (String × List SocketAddr) :=
  match parse raw with
  | none => .error "invalid url"
  | some url =>
      if url.scheme ≠ "http" ∧ url.scheme ≠ "https" then .error "scheme must be http or https"
      else
        match url.host with
        | none => .error "url has no host"
        | some host =>
            let port := url.port.getD 443
            match lookupHost host port with
            | none => .error "could not resolve host"
            | some ips => .ok (host, ips.map fun ip => ⟨ip, port⟩)

/-- The loop of `build_pinned_client` over the addresses that are left. -/
def vet (pinned : Option SocketAddr) : List SocketAddr → Except String (Option SocketAddr)
  | [] => .ok pinned
  | addr :: addrs =>
      if isBlockedIp addr.ip then .error "url resolves to a non-public address"
      else vet (if pinned.isNone then some addr else pinned) addrs

/-- `build_pinned_client`. -/
def buildPinnedClient (L : DeliveryLib) (lookupHost : Resolver) (raw : String) :
    Except String (Client × SocketAddr) := do
  let (host, addrs) ← resolve L.parseUrl lookupHost raw
  match ← vet none addrs with
  | none => .error "url did not resolve to any address"
  | some pinned =>
      let client := Client.pinnedTo host pinned
      if L.builds client then .ok (client, pinned) else .error "failed to build http client"

/-! ### The delivery -/

/-- A request that is sent. -/
structure WebhookRequest where
  /-- What its client was told. -/
  client : Client
  url : String
  headers : List (String × String)
  body : Bytes
deriving DecidableEq

/-- The name of an event. -/
def ApiEvent.eventType : ApiEvent → String
  | .blockMined _ => "block_mined"
  | .cellCreated _ => "cell_created"

/-- The headers that sign a body, if the webhook has a secret. -/
def signatureHeaders (L : DeliveryLib) (timestamp : ℤ) (secret : Option String) (body : Bytes) :
    List (String × String) :=
  match secret with
  | none => []
  | some secret =>
      let message := (toString timestamp ++ ".").toUTF8.toList ++ body
      let signature := Hex.encode (L.hmacSha256 secret.toUTF8.toList message)
      [("x-webhook-timestamp", toString timestamp),
        ("x-webhook-signature", "sha256=" ++ signature)]

/-- `dispatch_webhook`: the request it sends, if any.  It ignores the answer. -/
def dispatchWebhook (L : DeliveryLib) (lookupHost : Resolver) (timestamp : ℤ) (webhook : Webhook)
    (event : ApiEvent) : Option WebhookRequest :=
  match L.toVec event.eventType event with
  | none => none
  | some body =>
      match buildPinnedClient L lookupHost webhook.url with
      | .error _ => none
      | .ok (client, _) =>
          some
            { client := client
              url := webhook.url
              headers := ("content-type", "application/json") ::
                signatureHeaders L timestamp webhook.secret body
              body := body }

/-! ### What a client is pinned to -/

/-- The resolver is asked for the host of the URL, and answers with the addresses. -/
def Answers (L : DeliveryLib) (lookupHost : Resolver) (raw host : String)
    (addrs : List SocketAddr) : Prop :=
  ∃ url ips, L.parseUrl raw = some url ∧ (url.scheme = "http" ∨ url.scheme = "https") ∧
    url.host = some host ∧ lookupHost host (url.port.getD 443) = some ips ∧
    addrs = ips.map fun ip => ⟨ip, url.port.getD 443⟩

section Pinned

variable {L : DeliveryLib} {lookupHost : Resolver} {raw : String}

lemma resolve_eq_ok_iff {host : String} {addrs : List SocketAddr} :
    resolve L.parseUrl lookupHost raw = .ok (host, addrs) ↔
      Answers L lookupHost raw host addrs := by
  constructor
  · intro h
    rw [resolve] at h
    split at h
    · cases h
    · rename_i url hurl
      split at h
      · cases h
      · rename_i hscheme
        split at h
        · cases h
        · rename_i host' hhost
          dsimp only at h
          split at h
          · cases h
          · rename_i ips hips
            cases h
            refine ⟨url, ips, hurl, ?_, hhost, hips, rfl⟩
            by_contra hne
            exact hscheme ⟨fun h => hne (.inl h), fun h => hne (.inr h)⟩
  · rintro ⟨url, ips, hurl, hscheme, hhost, hips, rfl⟩
    have hkeep : ¬ (url.scheme ≠ "http" ∧ url.scheme ≠ "https") := by
      rintro ⟨h₁, h₂⟩
      exact hscheme.elim h₁ h₂
    rw [resolve, hurl]
    dsimp only
    rw [if_neg hkeep, hhost]
    dsimp only
    rw [hips]

/-- There is one answer. -/
lemma Answers.unique {host host' : String} {addrs addrs' : List SocketAddr}
    (h : Answers L lookupHost raw host addrs) (h' : Answers L lookupHost raw host' addrs') :
    host' = host ∧ addrs' = addrs := by
  rw [← resolve_eq_ok_iff] at h h'
  rw [h, Except.ok.injEq, Prod.mk.injEq] at h'
  exact ⟨h'.1.symm, h'.2.symm⟩

/-- The loop keeps what it has pinned, or pins the first address, and has tested all. -/
lemma vet_eq_ok_iff {pinned result : Option SocketAddr} {addrs : List SocketAddr} :
    vet pinned addrs = .ok result ↔
      (∀ a ∈ addrs, isBlockedIp a.ip = false) ∧ result = pinned.or addrs.head? := by
  induction addrs generalizing pinned with
  | nil =>
      rw [vet, List.head?_nil, Option.or_none, Except.ok.injEq, eq_comm]
      simp
  | cons a addrs ih =>
      rw [vet, List.forall_mem_cons, List.head?_cons]
      by_cases hblocked : isBlockedIp a.ip = true
      · simp [hblocked]
      · rw [if_neg hblocked, ih, and_assoc]
        have hnext : (if pinned.isNone then some a else pinned).or addrs.head? =
            pinned.or (some a) := by
          cases pinned with
          | none => rfl
          | some p => rfl
        rw [hnext]
        simp [hblocked]

/-- A client is built exactly for an answer without a blocked address, and pinned to its first
address. -/
lemma buildPinnedClient_eq_ok_iff {client : Client} {pinned : SocketAddr} :
    buildPinnedClient L lookupHost raw = .ok (client, pinned) ↔
      ∃ host addrs, Answers L lookupHost raw host addrs ∧ addrs.head? = some pinned ∧
        (∀ a ∈ addrs, isBlockedIp a.ip = false) ∧ client = .pinnedTo host pinned ∧
        L.builds client = true := by
  rw [buildPinnedClient, Except.bind_eq_ok]
  constructor
  · rintro ⟨⟨host, addrs⟩, hresolve, h⟩
    obtain ⟨found, hvet, h⟩ := Except.bind_eq_ok.1 h
    obtain ⟨hall, hfound⟩ := vet_eq_ok_iff.1 hvet
    rw [Option.none_or] at hfound
    cases found with
    | none => cases h
    | some p =>
        dsimp only at h
        split at h
        · rename_i hbuilds
          cases h
          exact ⟨host, addrs, resolve_eq_ok_iff.1 hresolve, hfound.symm, hall, rfl, hbuilds⟩
        · cases h
  · rintro ⟨host, addrs, hanswers, hhead, hall, rfl, hbuilds⟩
    have hvet : vet none addrs = .ok (some pinned) :=
      vet_eq_ok_iff.2 ⟨hall, by rw [Option.none_or, hhead]⟩
    refine ⟨(host, addrs), resolve_eq_ok_iff.2 hanswers, ?_⟩
    refine Except.bind_eq_ok.2 ⟨some pinned, hvet, ?_⟩
    dsimp only
    rw [if_pos hbuilds]

end Pinned

/-! ### Public addresses -/

/-- A client that is built is pinned to an address of the answer, and every address of the
answer is public. -/
def StaysPublic (L : DeliveryLib) (lookupHost : Resolver) (raw : String) : Prop :=
  ∀ client pinned, buildPinnedClient L lookupHost raw = .ok (client, pinned) →
    ∃ host addrs, Answers L lookupHost raw host addrs ∧ pinned ∈ addrs ∧
      ∀ a ∈ addrs, ¬ NonPublic a.ip

section StaysPublic

variable {L : DeliveryLib} {lookupHost : Resolver} {raw : String}

/-- An accepted answer has only public addresses, if the client stays among them. -/
lemma StaysPublic.not_nonPublic (h : StaysPublic L lookupHost raw) {host : String}
    {addrs : List SocketAddr} {pinned : SocketAddr} (hanswers : Answers L lookupHost raw host addrs)
    (hhead : addrs.head? = some pinned) (hall : ∀ a ∈ addrs, isBlockedIp a.ip = false)
    (hbuilds : L.builds (.pinnedTo host pinned) = true) : ∀ a ∈ addrs, ¬ NonPublic a.ip := by
  have hbuild : buildPinnedClient L lookupHost raw = .ok (.pinnedTo host pinned, pinned) :=
    buildPinnedClient_eq_ok_iff.2 ⟨host, addrs, hanswers, hhead, hall, rfl, hbuilds⟩
  obtain ⟨host', addrs', hanswers', -, hpublic⟩ := h _ _ hbuild
  obtain ⟨-, rfl⟩ := hanswers.unique hanswers'
  exact hpublic

/-- **Deliveries to public addresses.**  The client stays among public addresses exactly if the
answer has a blocked address, or has no address without a test, or no client can be built for
its first address. -/
theorem staysPublic_iff (L : DeliveryLib) (lookupHost : Resolver) (raw : String) :
    StaysPublic L lookupHost raw ↔
      ∀ host addrs, Answers L lookupHost raw host addrs →
        (∃ a ∈ addrs, isBlockedIp a.ip = true) ∨ (∀ a ∈ addrs, ¬ Untested a.ip) ∨
          ∀ a ∈ addrs.head?, L.builds (.pinnedTo host a) = false := by
  constructor
  · intro hstays host addrs hanswers
    by_cases hblocked : ∃ a ∈ addrs, isBlockedIp a.ip = true
    · exact .inl hblocked
    have hall : ∀ a ∈ addrs, isBlockedIp a.ip = false := by
      intro a ha
      exact Bool.eq_false_iff.2 fun h => hblocked ⟨a, ha, h⟩
    by_cases hbuilds : ∃ a ∈ addrs.head?, L.builds (.pinnedTo host a) = true
    · obtain ⟨pinned, hhead, hbuilds⟩ := hbuilds
      refine .inr (.inl fun a ha huntested => ?_)
      exact hstays.not_nonPublic hanswers hhead hall hbuilds a ha
        ((nonPublic_iff a.ip).2 (.inr huntested))
    · refine .inr (.inr fun a ha => ?_)
      exact Bool.eq_false_iff.2 fun h => hbuilds ⟨a, ha, h⟩
  · intro h client pinned hbuild
    obtain ⟨host, addrs, hanswers, hhead, hall, rfl, hbuilds⟩ :=
      buildPinnedClient_eq_ok_iff.1 hbuild
    refine ⟨host, addrs, hanswers, List.mem_of_head? hhead, fun a ha hnon => ?_⟩
    rcases h host addrs hanswers with ⟨b, hb, hblocked⟩ | huntested | hfails
    · rw [hall b hb] at hblocked
      cases hblocked
    · rcases (nonPublic_iff a.ip).1 hnon with hblocked | hun
      · rw [hall a ha] at hblocked
        cases hblocked
      · exact huntested a ha hun
    · rw [hfails pinned hhead] at hbuilds
      cases hbuilds

/-- A request then goes to a public address only, since its client follows no redirect. -/
theorem dispatchWebhook_public {timestamp : ℤ} {webhook : Webhook} {event : ApiEvent}
    {request : WebhookRequest} (hstays : StaysPublic L lookupHost webhook.url)
    (h : dispatchWebhook L lookupHost timestamp webhook event = some request) :
    request.client.followsRedirects = false ∧ request.client.addrs ≠ [] ∧
      ∀ a ∈ request.client.addrs, ¬ NonPublic a.ip := by
  rw [dispatchWebhook] at h
  split at h
  · cases h
  · split at h
    · cases h
    · rename_i client pinned hbuild
      cases h
      obtain ⟨host, addrs, hanswers, hpinned, hpublic⟩ := hstays _ _ hbuild
      obtain ⟨-, -, -, -, -, rfl, -⟩ := buildPinnedClient_eq_ok_iff.1 hbuild
      refine ⟨rfl, List.cons_ne_nil _ _, fun a ha => ?_⟩
      obtain rfl := List.mem_singleton.1 ha
      exact hpublic a hpinned

end StaysPublic

/-! ### Two answers without a test -/

namespace DeliverySample

/-- The URL of a webhook. -/
def raw : String := "http://hook.example/h"

/-- The crates, on that URL. -/
def lib : DeliveryLib where
  parseUrl := fun s =>
    if s = raw then some ⟨"http", some "hook.example", some 80⟩ else none
  builds := fun _ => true
  hmacSha256 := fun _ _ => []
  toVec := fun _ _ => none

/-- A resolver that answers with one address. -/
def answering (ip : IpAddr) : Resolver := fun _ _ => some [ip]

/-- 224.0.0.1, all hosts of the local network. -/
def allHosts : IpAddr := .v4 224 0 0 1

/-- 64:ff9b::a9fe:a9fe, which a NAT64 gateway sends to 169.254.169.254. -/
def metadata : IpAddr := .v6 0x64 0xff9b 0 0 0 0 0xa9fe 0xa9fe

lemma nonPublic_allHosts : NonPublic allHosts := by
  show Cidr.InAny nonPublicV4 (v4Number 224 0 0 1)
  decide

lemma nonPublic_metadata : NonPublic metadata :=
  .inr ⟨.nat64, by decide, by decide⟩

lemma answers_answering (ip : IpAddr) :
    Answers lib (answering ip) raw "hook.example" [⟨ip, 80⟩] := by
  have hparse : lib.parseUrl raw = some ⟨"http", some "hook.example", some 80⟩ := by simp [lib]
  exact ⟨_, [ip], hparse, .inl rfl, rfl, rfl, rfl⟩

/-- One address that is not public and not blocked is enough. -/
lemma not_staysPublic_answering {ip : IpAddr} (hpass : isBlockedIp ip = false)
    (hnon : NonPublic ip) : ¬ StaysPublic lib (answering ip) raw := by
  intro hstays
  refine hstays.not_nonPublic (answers_answering ip) rfl ?_ rfl ⟨ip, 80⟩ List.mem_cons_self hnon
  intro a ha
  obtain rfl := List.mem_singleton.1 ha
  exact hpass

end DeliverySample

section Sample

open DeliverySample

/-- A delivery is pinned to a multicast address, and one to the address that a gateway takes
for the metadata service. -/
theorem delivery_pinned_to_nonPublic :
    buildPinnedClient lib (answering allHosts) raw =
        .ok (.pinnedTo "hook.example" ⟨allHosts, 80⟩, ⟨allHosts, 80⟩) ∧
      NonPublic allHosts ∧ ¬ StaysPublic lib (answering allHosts) raw ∧
      NonPublic metadata ∧ ¬ StaysPublic lib (answering metadata) raw := by
  have hpass : isBlockedIp allHosts = false := by decide
  have hpass' : isBlockedIp metadata = false := by decide
  refine ⟨?_, nonPublic_allHosts, not_staysPublic_answering hpass nonPublic_allHosts,
    nonPublic_metadata, not_staysPublic_answering hpass' nonPublic_metadata⟩
  refine buildPinnedClient_eq_ok_iff.2 ⟨_, _, answers_answering allHosts, rfl, ?_, rfl, rfl⟩
  intro a ha
  obtain rfl := List.mem_singleton.1 ha
  exact hpass

end Sample

end Api

end Cellora
