import Dunlin.Messages

/-!
# The webhook channel

The model of `subscriptions/webhook.rs`: which addresses are public, the resolver that drops the
others, the check a URL has to pass at sign-up and again before every send, and the send itself.

## What is a parameter

Parsing a URL is the `url` crate's (`UrlCrate`): any function to the parts the source asks for.
Sending a request is reqwest's (`Reqwest`): any relation between a request and the sockets it may
connect to. What the guard relies on is said of it where it is used: a client that follows no
redirects and uses no proxies connects to the host of the URL (`Reqwest.Direct`).

DNS is the world's: a lookup may answer anything, and something else the next time.

## Scope

The texts a sign-up is refused with are the source's own. Timeouts and the pool of connections are
left out: a send has a response or an error.
-/

namespace Dunlin

/-! ### Addresses -/

abbrev Ipv4Addr := BitVec 32

abbrev Ipv6Addr := BitVec 128

inductive IpAddr
  | v4 (ip : Ipv4Addr)
  | v6 (ip : Ipv6Addr)
  deriving DecidableEq, Repr

structure SocketAddr where
  ip : IpAddr
  port : UInt16
  deriving DecidableEq, Repr

/-- Whether the first `bits` bits of an address are those of `net`. -/
def inNet {w : ℕ} (ip net : BitVec w) (bits : ℕ) : Bool :=
  let mask := BitVec.allOnes w <<< (w - bits)
  ip &&& mask == net &&& mask

/-- An address from its octets. -/
def octets (a b c d : BitVec 8) : Ipv4Addr := a ++ b ++ c ++ d

def inV4 (ip net : Ipv4Addr) (bits : ℕ) : Bool := inNet ip net bits

/-- The IPv4 networks that are not public. -/
def blockedV4 : List (Ipv4Addr × ℕ) := [
  (octets 0 0 0 0, 8),
  (octets 10 0 0 0, 8),
  (octets 100 64 0 0, 10),
  (octets 127 0 0 0, 8),
  (octets 169 254 0 0, 16),
  (octets 172 16 0 0, 12),
  (octets 192 0 0 0, 24),
  (octets 192 0 2 0, 24),
  (octets 192 88 99 0, 24),
  (octets 192 168 0 0, 16),
  (octets 198 18 0 0, 15),
  (octets 198 51 100 0, 24),
  (octets 203 0 113 0, 24),
  (octets 224 0 0 0, 4),
  (octets 240 0 0 0, 4)]

def isPublicV4 (ip : Ipv4Addr) : Bool := !blockedV4.any fun (net, bits) => inV4 ip net bits

def inV6 (ip net : Ipv6Addr) (bits : ℕ) : Bool := inNet ip net bits

/-- `Ipv6Addr::segments`. -/
def segment (ip : Ipv6Addr) (i : ℕ) : BitVec 16 := ip.extractLsb' (112 - 16 * i) 16

def embeddedV4 (hi lo : BitVec 16) : Ipv4Addr := hi ++ lo

/-- `Ipv6Addr::to_ipv4_mapped`. -/
def toIpv4Mapped (ip : Ipv6Addr) : Option Ipv4Addr :=
  if ip.extractLsb' 32 96 = 0xffff#96 then some (ip.extractLsb' 0 32) else none

/-- The IPv6 networks in the global unicast range that are not public. -/
def blockedV6 : List (Ipv6Addr × ℕ) := [
  (0x20010000#128 <<< 96, 23),
  (0x20010db8#128 <<< 96, 32),
  (0x3fff0000#128 <<< 96, 20)]

def isPublicV6 (ip : Ipv6Addr) : Bool :=
  -- forms that reach an IPv4 host are judged by that host
  match toIpv4Mapped ip with
  | some v4 => isPublicV4 v4
  | none =>
    if inV6 ip 0x0064ff9b000000000000000000000000#128 96 then
      isPublicV4 (embeddedV4 (segment ip 6) (segment ip 7))
    else if segment ip 0 = 0x2002#16 then
      isPublicV4 (embeddedV4 (segment ip 1) (segment ip 2))
    else if !inV6 ip (0x2000#128 <<< 112) 3 then false
    else !blockedV6.any fun (net, bits) => inV6 ip net bits

/-- Whether an address is reachable on the public internet. -/
def isPublic : IpAddr → Bool
  | .v4 ip => isPublicV4 ip
  | .v6 ip => isPublicV6 ip

/-! ### URLs -/

inductive Host
  | domain (name : String)
  | ipv4 (ip : Ipv4Addr)
  | ipv6 (ip : Ipv6Addr)
  deriving DecidableEq, Repr

/-- `url::Url`, as far as the source asks. -/
structure Url where
  scheme : String
  username : String := ""
  password : Option String := none
  host : Option Host
  /-- `Url::host_str`. -/
  hostStr : Option String
  /-- `none` also when the port is the scheme's own. -/
  port : Option UInt16 := none
  path : String := "/"
  deriving DecidableEq, Repr

/-- The ports schemes stand for. -/
def defaultPort : String → Option UInt16
  | "https" | "wss" => some 443
  | "http" | "ws" => some 80
  | "ftp" => some 21
  | _ => none

/-- `Url::port_or_known_default`. -/
def Url.portOrKnownDefault (u : Url) : Option UInt16 := u.port <|> defaultPort u.scheme

/-- The address written in the URL. -/
def Url.literal (u : Url) : Option IpAddr :=
  match u.host with
  | some (.ipv4 ip) => some (.v4 ip)
  | some (.ipv6 ip) => some (.v6 ip)
  | _ => none

/-- The `url` crate. -/
structure UrlCrate where
  /-- `Url::parse`. -/
  parse : String → Option Url
  toString : Url → String

def maxUrlLen : ℕ := 2048

def badUrl : String :=
  "That is not a webhook URL updates can be sent to. It must start with https://."

/-- Check a subscriber URL. `strict` is off only in tests. -/
def checkUrl (uc : UrlCrate) (input : String) (strict : Bool) : Except String Url :=
  let input := trim input
  if input.utf8ByteSize > maxUrlLen then
    .error s!"The URL is too long; at most {maxUrlLen} characters."
  else
    match uc.parse input with
    | none => .error badUrl
    | some url =>
      let schemeOk := url.scheme == "https" || url.scheme == "http" && !strict
      if !schemeOk || url.host.isNone then .error badUrl
      else if url.username ≠ "" ∨ url.password.isSome then
        .error "The URL must not contain a user name or password."
      else if strict && url.port.isSome then
        .error "Only the standard https port (443) is supported."
      else if strict && url.literal.any (!isPublic ·) then
        .error "That address is not on the public internet."
      else .ok url

/-! ### The client -/

/-- What DNS says about a name. -/
abbrev Lookup := String → Except String (List IpAddr)

/-- `PublicResolver::resolve`: public addresses only, and an error when none is left. -/
def resolve (lookup : Lookup) (host : String) : Except String (List SocketAddr) := do
  let found ← lookup host
  let found := (found.filter isPublic).map fun ip => ⟨ip, 0⟩
  if found.isEmpty then throw s!"{host} has no public address" else return found

/-- `redirect::Policy`. -/
inductive RedirectPolicy
  | none
  | limited (max : ℕ)
  deriving DecidableEq, Repr

/-- What a `reqwest::Client` was built with. -/
structure Client where
  /-- `dns_resolver`, for what DNS says at the moment. -/
  dnsResolver : Lookup → String → Except String (List SocketAddr)
  redirect : RedirectPolicy
  httpsOnly : Bool
  /-- Whether the proxies of the environment are used. -/
  proxies : Bool

/-- `guarded_client`: the client for subscriber URLs only. -/
def guardedClient : Client where
  dnsResolver := resolve
  redirect := .none
  httpsOnly := true
  proxies := false

/-- reqwest. While a request is on its way DNS may be asked any number of times, and `dns k` is what
it says the `k`-th time. -/
structure Reqwest where
  /-- The sockets that posting to a URL may connect to. -/
  mayConnect : Client → (ℕ → Lookup) → Url → SocketAddr → Prop

/-- The sockets of a URL's own host: the address in the URL, or one the resolver returned for the
name in it. A resolved address of port 0 stands for the URL's port. -/
def Client.OwnHost (c : Client) (dns : ℕ → Lookup) (url : Url) (a : SocketAddr) : Prop :=
  ∃ port, url.portOrKnownDefault = some port ∧
    match url.host with
    | none => False
    | some (.ipv4 ip) => a = ⟨.v4 ip, port⟩
    | some (.ipv6 ip) => a = ⟨.v6 ip, port⟩
    | some (.domain name) => ∃ k found, c.dnsResolver (dns k) name = .ok found ∧
        ∃ r ∈ found, a = if r.port = 0 then { r with port := port } else r

/-- What reqwest documents of a client without redirects and proxies: it connects to the URL's own
host. -/
def Reqwest.Direct (rq : Reqwest) : Prop :=
  ∀ (c : Client) (dns : ℕ → Lookup) (url : Url) (a : SocketAddr),
    c.redirect = .none → c.proxies = false → rq.mayConnect c dns url a → c.OwnHost dns url a

/-! ### Sending -/

inductive Format
  | slack
  | discord
  | json
  deriving DecidableEq, Repr

/-- The payload shape, picked from the URL. -/
def detect (url : Url) : Format :=
  let host := url.hostStr.getD ""
  if host = "hooks.slack.com" then .slack
  else if host ∈ ["discord.com", "discordapp.com", "ptb.discord.com", "canary.discord.com"] ∧
      "/api/webhooks/".toList <+: url.path.toList then .discord
  else .json

/-- `reqwest::StatusCode`: the code, and how it is displayed. -/
structure StatusCode where
  code : UInt16
  text : String
  deriving DecidableEq, Repr

/-- What comes back from a request: a status, or an error of the transport. -/
abbrev Response := Except String StatusCode

structure WebhookChannel where
  client : Client
  strict : Bool

namespace WebhookChannel

/-- `WebhookChannel::new`. -/
def new : WebhookChannel := ⟨guardedClient, true⟩

variable (ch : WebhookChannel) (uc : UrlCrate)

def normalizeAddress (input : String) : Except String String :=
  (checkUrl uc input ch.strict).map uc.toString

/-- What a delivery is posted to. The address is checked again: IP literals never reach the
resolver. -/
def target (d : Delivery) : Except String Url := checkUrl uc d.address ch.strict

/-- What is posted. -/
def body (chrono : Chrono) (d : Delivery) (url : Url) (now : ℤ) : Json :=
  match detect url with
  | .slack => slackPayload chrono d now
  | .discord => discordPayload chrono d now
  | .json => jsonPayload d now

/-- What a response comes to. -/
def outcome : Response → SendResult
  | .error e => .err .counted e
  | .ok status =>
    if 200 ≤ status.code ∧ status.code < 300 then .ok
    else if status.code = 429 then .err .plain s!"webhook returned {status.text}"
    else if status.code = 404 ∨ status.code = 410 then
      .err .permanent s!"webhook returned {status.text}"
    else .err .counted s!"webhook returned {status.text}"

/-- `SubscriberChannel::send`, with the world's answer to the request. -/
def send (chrono : Chrono) (post : Client → Url → Json → Response) (d : Delivery) (now : ℤ) :
    SendResult :=
  match ch.target uc d with
  | .error e => .err .permanent s!"refused URL: {e}"
  | .ok url => outcome (post ch.client url (body chrono d url now))

end WebhookChannel

end Dunlin
