import Dunlin.Lib.Run
import Dunlin.Webhook

/-!
# Subscriber URLs reach public hosts only

A URL comes from anyone, and what its host resolves to may change at any time. Two checks share the
work: `checkUrl` judges an address written in the URL, which no resolver ever sees, and the resolver
judges the addresses of a name, which the URL does not show. `ssrf_guard` is that together they
leave no gap, on every send and for every stored address.

Nothing is assumed about the crate that parses URLs: whatever it says of a string, it says again
when the stored address is checked before a send. Nothing is assumed about DNS either. A lookup may
mix public and internal addresses, and the next one may answer something else, so the argument never
compares two of them: the resolver filters every answer it gets. What is assumed of reqwest is
`Reqwest.Direct`.

## Main results

* `resolve_ok` — an answer of the resolver has public addresses only, whatever DNS said
* `guarded_of_mayConnect` — a request of the guarded client connects to public addresses
* `ssrf_guard` — every run of sign-ups, other writes and sends
* `ssrf_guard_rebinding` — a name that is public at sign-up and internal at the send
-/

namespace Dunlin

open Lib

variable {uc : UrlCrate}

/-- What `checkUrl` promises of a URL. -/
structure SafeUrl (url : Url) : Prop where
  scheme : url.scheme = "https"
  username : url.username = ""
  password : url.password = none
  port : url.port = none
  ipv4 : ∀ ip, url.host = some (.ipv4 ip) → isPublic (.v4 ip) = true
  ipv6 : ∀ ip, url.host = some (.ipv6 ip) → isPublic (.v6 ip) = true

/-- A connection the guard lets through. -/
structure Guarded (url : Url) (a : SocketAddr) : Prop where
  isPublic : isPublic a.ip = true
  scheme : url.scheme = "https"
  port : a.port = 443
  username : url.username = ""
  password : url.password = none

theorem safeUrl_of_checkUrl {input : String} {url : Url} (h : checkUrl uc input true = .ok url) :
    SafeUrl url := by
  unfold checkUrl at h
  dsimp only at h
  split at h
  · cases h
  split at h
  · cases h
  rename_i found hparse
  split at h
  · cases h
  rename_i hscheme
  split at h
  · cases h
  rename_i hcredentials
  split at h
  · cases h
  rename_i hport
  split at h
  · cases h
  rename_i hliteral
  obtain rfl := Except.ok.inj h
  have hpublic : ∀ ip, found.literal = some ip → isPublic ip = true := by
    intro ip hip
    simpa [hip] using hliteral
  refine ⟨?_, ?_, ?_, ?_, fun ip hip => hpublic _ ?_, fun ip hip => hpublic _ ?_⟩
  · simp only [Bool.not_true, Bool.and_false, Bool.or_false, Bool.or_eq_true,
      Bool.not_eq_true', not_or, Bool.not_eq_false, beq_iff_eq] at hscheme
    exact hscheme.1
  · by_contra hne
    exact hcredentials (.inl hne)
  · simpa using fun h => hcredentials (.inr h)
  · simpa using hport
  · rw [Url.literal, hip]
  · rw [Url.literal, hip]

/-- The resolver hands out public addresses, for the port of the URL. -/
theorem resolve_ok {lookup : Lookup} {name : String} {found : List SocketAddr}
    (h : resolve lookup name = .ok found) {r : SocketAddr} (hr : r ∈ found) :
    isPublic r.ip = true ∧ r.port = 0 := by
  unfold resolve at h
  cases hfound : lookup name with
  | error e => simp [hfound, bind, Except.bind] at h
  | ok ips =>
    simp only [hfound, bind, Except.bind] at h
    split at h
    · cases h
    · obtain rfl := Except.ok.inj h
      obtain ⟨ip, hip, rfl⟩ := List.mem_map.mp hr
      exact ⟨(List.mem_filter.mp hip).2, rfl⟩

/-! ### Runs -/

/-- What happens to stored addresses. -/
inductive WebhookOp
  /-- A visitor gives a URL. What the sign-up accepts is stored as normalised. -/
  | signUp (input : String)
  /-- An address gets into the database in some other way. -/
  | store (address : String)
  /-- A message is sent, while DNS answers as it likes. -/
  | send (d : Delivery) (dns : ℕ → Lookup)

namespace WebhookOp

/-- The addresses stored after an operation. -/
def step (uc : UrlCrate) (stored : List String) : WebhookOp → List String
  | .signUp input =>
    match WebhookChannel.new.normalizeAddress uc input with
    | .ok address => address :: stored
    | .error _ => stored
  | .store address => address :: stored
  | .send .. => stored

/-- The operation may connect to the socket `a`, for a request to `url`. -/
def Connects (uc : UrlCrate) (rq : Reqwest) (stored : List String) (url : Url) (a : SocketAddr) :
    WebhookOp → Prop
  | .send d dns => d.address ∈ stored ∧ WebhookChannel.new.target uc d = .ok url ∧
      rq.mayConnect WebhookChannel.new.client dns url a
  | .signUp _ | .store _ => False

end WebhookOp

theorem guarded_of_mayConnect {rq : Reqwest} (hrq : rq.Direct) {d : Delivery} {dns : ℕ → Lookup}
    {url : Url} {a : SocketAddr} (htarget : WebhookChannel.new.target uc d = .ok url)
    (h : rq.mayConnect WebhookChannel.new.client dns url a) : Guarded url a := by
  have hsafe : SafeUrl url := safeUrl_of_checkUrl htarget
  obtain ⟨port, hport, hhost⟩ := hrq _ _ _ _ rfl rfl h
  have h443 : port = 443 := by
    rw [Url.portOrKnownDefault, hsafe.port, hsafe.scheme] at hport
    exact (Option.some.inj hport).symm
  have hsocket : isPublic a.ip = true ∧ a.port = 443 := by
    cases hh : url.host with
    | none =>
      rw [hh] at hhost
      exact hhost.elim
    | some host =>
      rw [hh] at hhost
      cases host with
      | ipv4 ip =>
        obtain rfl := hhost
        exact ⟨hsafe.ipv4 ip hh, h443⟩
      | ipv6 ip =>
        obtain rfl := hhost
        exact ⟨hsafe.ipv6 ip hh, h443⟩
      | domain name =>
        obtain ⟨k, found, hfound, r, hr, rfl⟩ := hhost
        obtain ⟨hpublic, hzero⟩ := resolve_ok hfound hr
        rw [if_pos hzero]
        exact ⟨hpublic, h443⟩
  exact ⟨hsocket.1, hsafe.scheme, hsocket.2, hsafe.username, hsafe.password⟩

/-- **The guard leaves no gap.** In every run of sign-ups, other writes and sends, whatever is
stored to begin with and whatever DNS answers at each lookup, the channel connects to public
addresses only, over https, on port 443, and for URLs without credentials. -/
theorem ssrf_guard (uc : UrlCrate) (rq : Reqwest) (hrq : rq.Direct) (stored : List String)
    (ops : List WebhookOp) :
    Always (WebhookOp.step uc)
      (fun stored op => ∀ url a, op.Connects uc rq stored url a → Guarded url a) stored ops := by
  refine Always.of_forall fun stored op url a h => ?_
  cases op with
  | signUp input => exact h.elim
  | store address => exact h.elim
  | send d dns => exact guarded_of_mayConnect hrq h.2.1 h.2.2

/-! ### A name that also resolves to the inside -/

/-- The reqwest that connects wherever its documentation lets it: to the URL's own host, and to any
socket with a redirect to follow or a proxy to use. -/
def liberalReqwest : Reqwest where
  mayConnect c dns url a :=
    (c.httpsOnly = true → url.scheme = "https") ∧
      (c.OwnHost dns url a ∨ c.redirect ≠ .none ∨ c.proxies = true)

theorem liberalReqwest_direct : liberalReqwest.Direct := by
  rintro c dns url a hredirect hproxies ⟨-, hown | hne | hproxy⟩
  · exact hown
  · exact absurd hredirect hne
  · rw [hproxies] at hproxy
    cases hproxy

/-- A URL with a name in it. -/
def nameUrl : Url where
  scheme := "https"
  host := some (.domain "hooks.example.org")
  hostStr := some "hooks.example.org"
  path := "/updates"

/-- One with an internal address in it. -/
def insideUrl : Url where
  scheme := "https"
  host := some (.ipv4 (octets 10 0 0 7))
  hostStr := some "10.0.0.7"
  path := "/updates"

def hookUrls : UrlCrate where
  parse input :=
    if input = "https://hooks.example.org/updates" then some nameUrl
    else if input = "https://10.0.0.7/updates" then some insideUrl
    else none
  toString u := u.scheme ++ "://" ++ u.hostStr.getD "" ++ u.path

/-- The name resolves to an internal and a public address the first time, and to the loopback
address from then on. -/
def rebinding (k : ℕ) : Lookup := fun _ =>
  if k = 0 then .ok [.v4 (octets 10 0 0 7), .v4 (octets 93 184 216 34)]
  else .ok [.v4 (octets 127 0 0 1)]

def hookMessage (address : String) : Delivery where
  address := address
  siteTitle := "Status"
  timezone := "UTC"
  siteUrl := none
  message := .confirm "https://status.example.org/confirm/c"
    "https://status.example.org/unsubscribe/k"

/-- A visitor signs up both URLs, the refused one gets into the database all the same, and both
get a message. -/
def hookOps : List WebhookOp :=
  [.signUp " https://hooks.example.org/updates ", .signUp "https://10.0.0.7/updates",
    .store "https://10.0.0.7/updates",
    .send (hookMessage "https://hooks.example.org/updates") rebinding,
    .send (hookMessage "https://10.0.0.7/updates") rebinding]

/-- The message to the name goes to its public address, and to no other. -/
theorem ssrf_guard_rebinding :
    Always (WebhookOp.step hookUrls)
        (fun stored op => ∀ url a, op.Connects hookUrls liberalReqwest stored url a →
          Guarded url a) [] hookOps ∧
      run (WebhookOp.step hookUrls) [] hookOps =
        ["https://10.0.0.7/updates", "https://hooks.example.org/updates"] ∧
      (WebhookOp.send (hookMessage "https://hooks.example.org/updates") rebinding).Connects hookUrls
        liberalReqwest ["https://10.0.0.7/updates", "https://hooks.example.org/updates"] nameUrl
        ⟨.v4 (octets 93 184 216 34), 443⟩ := by
  refine ⟨ssrf_guard hookUrls liberalReqwest liberalReqwest_direct [] hookOps, by decide, ?_, rfl,
    fun _ => rfl, .inl ⟨443, rfl, 0, [⟨.v4 (octets 93 184 216 34), 0⟩], rfl, _,
      List.mem_singleton_self _, rfl⟩⟩
  exact List.mem_cons_of_mem _ (List.mem_singleton_self _)

end Dunlin
