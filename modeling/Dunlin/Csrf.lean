import Dunlin.ClientIp
import Dunlin.Lib.Numeral
import Dunlin.Webhook

/-!
# The CSRF check

The model of `csrf_ok` in `web_auth.rs`, which every write action asks first: the URL in `Origin`,
or without one in `Referer`, is to have the host that the request was sent to. The URL is parsed by
the `url` crate; of the `Host` header the code takes what comes before the first colon.

An IPv6 literal holds colons itself. `HostHeader` is the grammar of the header: a name, an IPv4
address as a name of digits, or an IPv6 literal in brackets, and a port. `csrf_ok_iff` says when the
check compares the hosts.

## Scope

What the `url` crate makes of a URL is a parameter, with its documented behaviour on the hosts of
the grammar as a hypothesis (`UrlCrate.ShowsHosts`). `siteUrls` is a parser that has it.

## Main results

* `beforeColon_named`, `beforeColon_ipv6` — what the split leaves of each kind of host
* `csrf_ok_iff` — the check on every header of the grammar
* `address_refused` — a request to an IPv6 address, with the right `Origin`
-/

namespace Dunlin

open Lib

/-! ### The check -/

/-- `str::to_ascii_lowercase`. -/
def toAsciiLowercase (s : String) : String := String.ofList (s.toList.map Char.toLower)

/-- `str::eq_ignore_ascii_case`. -/
def eqIgnoreAsciiCase (a b : String) : Bool := toAsciiLowercase a == toAsciiLowercase b

/-- What comes before the first colon. -/
def beforeColon (s : String) : String := String.ofList (s.toList.takeWhile (· ≠ ':'))

def csrfOk (uc : UrlCrate) (headers : HeaderMap) : Bool :=
  match (headers.get "host").bind HeaderValue.toStr with
  | none => false
  | some host =>
    let host := toAsciiLowercase (beforeColon host)
    match (headers.get "origin" <|> headers.get "referer").bind HeaderValue.toStr with
    | none => false
    | some candidate =>
      match uc.parse candidate with
      | some u => (u.hostStr.map (eqIgnoreAsciiCase · host)).getD false
      | none => false

/-! ### Hosts -/

/-- `Ipv4Addr` as text. -/
def dottedQuad (ip : Ipv4Addr) : List Char :=
  List.intercalate ['.'] ([24, 16, 8, 0].map fun i => (ip.extractLsb' i 8).toNat.repr.toList)

def isHexDigit (c : Char) : Bool := c.isDigit || ('a' ≤ c && c ≤ 'f') || ('A' ≤ c && c ≤ 'F')

def hexVal (c : Char) : ℕ :=
  if c.isDigit then c.toNat - '0'.toNat else c.toLower.toNat - 'a'.toNat + 10

/-- One of the groups of an IPv6 literal. -/
structure Hextet where
  digits : List Char
  nonempty : digits ≠ []
  short : digits.length ≤ 4
  hex : ∀ c ∈ digits, isHexDigit c = true

def Hextet.value (x : Hextet) : BitVec 16 :=
  BitVec.ofNat 16 (x.digits.foldl (fun n c => 16 * n + hexVal c) 0)

/-- An IPv6 address as text: eight groups, some of them left out at `::`, the last two perhaps in
the form of an IPv4 address. -/
structure Ipv6Literal where
  head : List Hextet
  /-- The groups after `::`, if there is one. -/
  tail : Option (List Hextet)
  quad : Option Ipv4Addr
  count : match tail with
    | none => head.length + 2 * quad.toList.length = 8
    | some tail => head.length + tail.length + 2 * quad.toList.length ≤ 7

namespace Ipv6Literal

/-- Groups, and the address after them. -/
def groups (xs : List Hextet) (quad : Option Ipv4Addr) : List Char :=
  List.intercalate [':'] (xs.map (·.digits) ++ quad.toList.map dottedQuad)

def text (l : Ipv6Literal) : List Char :=
  match l.tail with
  | none => groups l.head l.quad
  | some tail => groups l.head none ++ ':' :: ':' :: groups tail l.quad

/-- The address. -/
def addr (l : Ipv6Literal) : Ipv6Addr :=
  let last := (l.tail.getD []).map Hextet.value ++
    l.quad.toList.flatMap fun ip => [ip.extractLsb' 16 16, ip.extractLsb' 0 16]
  let first := l.head.map Hextet.value
  (first ++ List.replicate (8 - first.length - last.length) 0#16 ++ last).foldl
    (fun ip x => ip <<< 16 ||| x.setWidth 128) 0#128

end Ipv6Literal

def nameChar (c : Char) : Bool := c.isAlphanum || c == '-' || c == '.' || c == '_'

/-- The host that a request names. -/
inductive HostName
  /-- A DNS name or an IPv4 address. -/
  | named (text : List Char) (nonempty : text ≠ []) (valid : ∀ c ∈ text, nameChar c = true)
  | ipv6 (literal : Ipv6Literal)

def HostName.text : HostName → List Char
  | .named text _ _ => text
  | .ipv6 literal => '[' :: literal.text ++ [']']

/-- The `Host` header. -/
structure HostHeader where
  name : HostName
  port : Option (List Char)
  digits : ∀ port' ∈ port, ∀ c ∈ port', c.isDigit = true

def HostHeader.text (h : HostHeader) : String :=
  String.ofList (h.name.text ++ h.port.elim [] (':' :: ·))

/-- The hosts are the same, but for the case of letters. -/
def HostName.Same : HostName → Host → Prop
  | .named text _ _, .domain name => eqIgnoreAsciiCase name (String.ofList text) = true
  | .named text _ _, .ipv4 ip => dottedQuad ip = text
  | .ipv6 literal, .ipv6 ip => literal.addr = ip
  | _, _ => False

/-- `Url::host_str` of a host: a domain has no bracket in it, and an IPv6 address is put in
brackets. -/
def Host.ShownAs : Host → String → Prop
  | .domain name, s => s = name ∧ '[' ∉ name.toList
  | .ipv4 ip, s => s.toList = dottedQuad ip
  | .ipv6 _, s => ∃ text, s.toList = '[' :: text ++ [']']

/-- What the code relies on of the `url` crate. -/
def UrlCrate.ShowsHosts (uc : UrlCrate) : Prop :=
  ∀ input u host, uc.parse input = some u → u.host = some host →
    ∃ s, u.hostStr = some s ∧ host.ShownAs s

/-! ### The case of letters -/

section Lowercase

variable {c d : Char} {s : String}

theorem not_upper_toLower (c : Char) :
    ¬(c.toLower.val ≥ 'A'.val ∧ c.toLower.val ≤ 'Z'.val) := by
  unfold Char.toLower
  split
  · rename_i h
    have hA : 'A'.val.toNat = 65 := rfl
    have hZ : 'Z'.val.toNat = 90 := rfl
    have hsub : ('a'.val - 'A'.val).toNat = 32 := rfl
    simp only [ge_iff_le, UInt32.le_iff_toNat_le, UInt32.toNat_add, hA, hZ, hsub] at h ⊢
    omega
  · assumption

/-- Before the small letters nothing comes from another character. -/
theorem eq_of_toLower (hd : d.val < 'a'.val) (h : c.toLower = d) : c = d := by
  unfold Char.toLower at h
  split at h
  · rename_i hc
    have hA : 'A'.val.toNat = 65 := rfl
    have hZ : 'Z'.val.toNat = 90 := rfl
    have ha : 'a'.val.toNat = 97 := rfl
    have hsub : ('a'.val - 'A'.val).toNat = 32 := rfl
    rw [← h] at hd
    simp only [ge_iff_le, UInt32.le_iff_toNat_le, UInt32.lt_iff_toNat_lt, UInt32.toNat_add, hA, hZ,
      ha, hsub] at hc hd
    omega
  · exact h

theorem toLower_toLower (c : Char) : c.toLower.toLower = c.toLower := dif_neg (not_upper_toLower c)

theorem toList_toAsciiLowercase (s : String) :
    (toAsciiLowercase s).toList = s.toList.map Char.toLower := String.toList_ofList

theorem eqIgnoreAsciiCase_lowercase (a b : String) :
    eqIgnoreAsciiCase a (toAsciiLowercase b) = true ↔
      a.toList.map Char.toLower = b.toList.map Char.toLower := by
  rw [eqIgnoreAsciiCase, beq_iff_eq, ← String.toList_inj]
  simp only [toList_toAsciiLowercase, List.map_map, Function.comp_def, toLower_toLower]

theorem mem_of_mem_map_toLower {l : List Char} (hd : d.val < 'a'.val)
    (h : d ∈ l.map Char.toLower) : d ∈ l := by
  obtain ⟨c, hc, hcd⟩ := List.mem_map.mp h
  rwa [← eq_of_toLower hd hcd]

/-- A text without letters is the same in small letters. -/
theorem map_toLower_eq_iff {l l' : List Char} (h : ∀ c ∈ l, c.val < 'a'.val ∧ c.toLower = c) :
    l.map Char.toLower = l'.map Char.toLower ↔ l = l' := by
  refine ⟨fun heq => ?_, fun heq => heq ▸ rfl⟩
  induction l generalizing l' with
  | nil => exact (List.map_eq_nil_iff.mp heq.symm).symm
  | cons c l ih =>
    cases l' with
    | nil => cases heq
    | cons c' l' =>
      obtain ⟨hhead, htail⟩ := List.cons.inj heq
      obtain ⟨hc, hl⟩ := List.forall_mem_cons.mp h
      rw [hc.2] at hhead
      rw [ih hl htail, eq_of_toLower hc.1 hhead.symm]

end Lowercase

/-! ### Addresses as text -/

theorem mem_intercalate {α : Type*} {sep : List α} {ls : List (List α)} {a : α}
    (h : a ∈ sep.intercalate ls) : a ∈ sep ∨ ∃ l ∈ ls, a ∈ l := by
  induction ls with
  | nil => cases h
  | cons l ls ih =>
    by_cases hls : ls = []
    · rw [hls, List.intercalate_singleton] at h
      exact .inr ⟨l, List.mem_cons_self, h⟩
    · rw [List.intercalate_cons_of_ne_nil hls, List.mem_append, List.mem_append] at h
      rcases h with (h | h) | h
      · exact .inr ⟨l, List.mem_cons_self, h⟩
      · exact .inl h
      · exact (ih h).imp_right fun ⟨l', hl', h'⟩ => ⟨l', List.mem_cons_of_mem l hl', h'⟩

theorem mem_dottedQuad {ip : Ipv4Addr} {c : Char} (h : c ∈ dottedQuad ip) :
    c.isDigit = true ∨ c = '.' := by
  rcases mem_intercalate h with h | ⟨l, hl, h⟩
  · exact .inr (List.mem_singleton.mp h)
  · obtain ⟨i, -, rfl⟩ := List.mem_map.mp hl
    rw [Nat.toList_repr] at h
    exact .inl (Nat.isDigit_of_mem_toDigits (by decide) (by decide) h)

/-- Digits and dots have no case. -/
theorem lowercase_dottedQuad {ip : Ipv4Addr} :
    ∀ c ∈ dottedQuad ip, c.val < 'a'.val ∧ c.toLower = c := by
  intro c hc
  rcases mem_dottedQuad hc with h | rfl
  · have hhigh : c.val.toNat ≤ 57 := of_decide_eq_true (Bool.and_eq_true_iff.mp h).2
    have hA : 'A'.val.toNat = 65 := rfl
    have ha : 'a'.val.toNat = 97 := rfl
    refine ⟨?_, dif_neg fun hupper => ?_⟩
    · rw [UInt32.lt_iff_toNat_lt]
      omega
    · have hlow := UInt32.le_iff_toNat_le.mp hupper.1
      omega
  · decide

namespace Ipv6Literal

theorem mem_groups {xs : List Hextet} {quad : Option Ipv4Addr} {c : Char} (h : c ∈ groups xs quad) :
    c = ':' ∨ isHexDigit c = true ∨ c = '.' := by
  rcases mem_intercalate h with h | ⟨l, hl, h⟩
  · exact .inl (List.mem_singleton.mp h)
  · rcases List.mem_append.mp hl with hl | hl
    · obtain ⟨x, -, rfl⟩ := List.mem_map.mp hl
      exact .inr (.inl (x.hex c h))
    · obtain ⟨ip, -, rfl⟩ := List.mem_map.mp hl
      refine .inr ((mem_dottedQuad h).imp_left fun hdigit => ?_)
      rw [isHexDigit, hdigit, Bool.true_or, Bool.true_or]

theorem bracket_notMem_text (l : Ipv6Literal) : ']' ∉ l.text := by
  have hgroups : ∀ xs quad, ']' ∉ groups xs quad := fun xs quad h => by
    rcases mem_groups h with h | h | h
    · exact absurd h (by decide)
    · exact absurd h (by decide)
    · exact absurd h (by decide)
  rw [text]
  split
  · exact hgroups _ _
  · intro h
    rcases List.mem_append.mp h with h | h
    · exact hgroups _ _ h
    · simp only [List.mem_cons] at h
      rcases h with h | h | h
      · exact absurd h (by decide)
      · exact absurd h (by decide)
      · exact hgroups _ _ h

theorem colon_mem_text (l : Ipv6Literal) : ':' ∈ l.text := by
  obtain ⟨head, tail, quad, hcount⟩ := l
  cases tail with
  | some tail => exact List.mem_append_right _ List.mem_cons_self
  | none =>
    have hquad := Option.length_toList_le (o := quad)
    dsimp only at hcount
    -- without `::` there are at least six groups before an IPv4 address
    cases head with
    | nil => rw [List.length_nil] at hcount; omega
    | cons x xs =>
      cases xs with
      | nil => rw [List.length_singleton] at hcount; omega
      | cons y xs =>
        rw [text, groups]
        simp

end Ipv6Literal

/-! ### Before the first colon -/

theorem toList_beforeColon {s : String} {l l' : List Char} (hs : s.toList = l ++ l')
    (hl : ':' ∉ l) (hl' : ∀ c ∈ l'.head?, c = ':') : (beforeColon s).toList = l := by
  have hnot : ∀ c ∈ l, decide (c ≠ ':') = true := fun c hc =>
    decide_eq_true fun heq => hl (heq ▸ hc)
  rw [beforeColon, String.toList_ofList, hs]
  exact (takeWhile_append_stop hnot fun c hc => by rw [hl' c hc]; rfl).1

theorem head_port (port : Option (List Char)) : ∀ c ∈ (port.elim [] (':' :: ·)).head?, c = ':' := by
  cases port with
  | none => exact fun c h => absurd h (Option.not_mem_none c)
  | some digits => exact fun c h => (Option.some_inj.mp h).symm

/-- A name has no colon. -/
theorem beforeColon_named {h : HostHeader} {text : List Char} {hne : text ≠ []}
    {hvalid : ∀ c ∈ text, nameChar c = true} (hname : h.name = .named text hne hvalid) :
    (beforeColon h.text).toList = text := by
  have htext : h.text.toList = text ++ h.port.elim [] (':' :: ·) := by
    rw [HostHeader.text, hname, String.toList_ofList]
    rfl
  exact toList_beforeColon htext (fun hcolon => absurd (hvalid ':' hcolon) (by decide))
    (head_port h.port)

/-- Of an IPv6 literal the bracket and the first group are left. -/
theorem beforeColon_ipv6 {h : HostHeader} {literal : Ipv6Literal}
    (hname : h.name = .ipv6 literal) :
    ∃ group, (beforeColon h.text).toList = '[' :: group ∧ ']' ∉ group := by
  obtain ⟨group, rest, htext, hcolon⟩ := List.eq_append_cons_of_mem literal.colon_mem_text
  have hbracket : ']' ∉ group := fun hmem =>
    literal.bracket_notMem_text (htext ▸ List.mem_append_left _ hmem)
  have hheader : h.text.toList =
      '[' :: group ++ ':' :: (rest ++ [']'] ++ h.port.elim [] (':' :: ·)) := by
    rw [HostHeader.text, hname, HostName.text, String.toList_ofList, htext]
    simp
  have hfirst : ':' ∉ '[' :: group := by
    intro hmem
    rcases List.mem_cons.mp hmem with hc | hc
    · exact absurd hc (by decide)
    · exact hcolon hc
  exact ⟨group, toList_beforeColon hheader hfirst fun c hc => (Option.some_inj.mp hc).symm,
    hbracket⟩

/-! ### What is compared -/

section Compared

variable {uc : UrlCrate} {headers : HeaderMap} {h : HostHeader} {candidate s : String} {u : Url}
  {host : Host}

theorem csrfOk_eq (hhost : (headers.get "host").bind HeaderValue.toStr = some h.text)
    (hcandidate : (headers.get "origin" <|> headers.get "referer").bind HeaderValue.toStr =
      some candidate)
    (hparse : uc.parse candidate = some u) (hs : u.hostStr = some s) :
    csrfOk uc headers = true ↔
      s.toList.map Char.toLower = (beforeColon h.text).toList.map Char.toLower := by
  rw [← eqIgnoreAsciiCase_lowercase]
  simp only [csrfOk, hhost, hcandidate, hparse, hs, Option.map_some, Option.getD_some]

/-- A name is compared as a host. -/
theorem same_named_iff {text : List Char} {hne : text ≠ []}
    {hvalid : ∀ c ∈ text, nameChar c = true} (hname : h.name = .named text hne hvalid)
    (hs : host.ShownAs s) :
    s.toList.map Char.toLower = (beforeColon h.text).toList.map Char.toLower ↔
      h.name.Same host := by
  rw [beforeColon_named hname, hname]
  cases host with
  | domain name =>
    rw [hs.1, HostName.Same, eqIgnoreAsciiCase, beq_iff_eq, ← String.toList_inj,
      toList_toAsciiLowercase, toList_toAsciiLowercase, String.toList_ofList]
  | ipv4 ip =>
    have hs : s.toList = dottedQuad ip := hs
    rw [hs, map_toLower_eq_iff lowercase_dottedQuad, HostName.Same]
  | ipv6 ip =>
    obtain ⟨shown, hs⟩ := hs
    refine iff_of_false (fun heq => ?_) id
    have hmem : '[' ∈ text.map Char.toLower := by
      rw [← heq, hs]
      exact List.mem_cons_self
    exact absurd (hvalid '[' (mem_of_mem_map_toLower (by decide) hmem)) (by decide)

/-- An IPv6 literal is never found to be the host of a URL. -/
theorem not_same_ipv6 {literal : Ipv6Literal} (hname : h.name = .ipv6 literal)
    (hs : host.ShownAs s) :
    s.toList.map Char.toLower ≠ (beforeColon h.text).toList.map Char.toLower := by
  obtain ⟨group, hgroup, hbracket⟩ := beforeColon_ipv6 hname
  intro heq
  rw [hgroup] at heq
  have hopen : '[' ∈ s.toList := mem_of_mem_map_toLower (by decide) (heq ▸ List.mem_cons_self)
  cases host with
  | domain name =>
    rw [hs.1] at hopen
    exact hs.2 hopen
  | ipv4 ip =>
    rw [show s.toList = dottedQuad ip from hs] at hopen
    rcases mem_dottedQuad hopen with hc | hc
    · exact absurd hc (by decide)
    · exact absurd hc (by decide)
  | ipv6 ip =>
    obtain ⟨shown, hs⟩ := hs
    have hclose : ']' ∈ ('[' :: group).map Char.toLower := by
      rw [← heq, hs]
      exact List.mem_map_of_mem (f := Char.toLower) (a := ']') (by simp)
    rcases List.mem_cons.mp (mem_of_mem_map_toLower (by decide) hclose) with hc | hc
    · exact absurd hc (by decide)
    · exact hbracket hc

end Compared

/-- **The check compares the hosts**, whatever the ports and the case of letters, unless the request
was sent to an IPv6 address: then it fails, and it should not if the URL has that address. -/
theorem csrf_ok_iff (uc : UrlCrate) (huc : uc.ShowsHosts) (headers : HeaderMap) (h : HostHeader)
    (candidate : String) (u : Url) (host : Host)
    (hhost : (headers.get "host").bind HeaderValue.toStr = some h.text)
    (hcandidate : (headers.get "origin" <|> headers.get "referer").bind HeaderValue.toStr =
      some candidate)
    (hparse : uc.parse candidate = some u) (hu : u.host = some host) :
    (csrfOk uc headers = true ↔ h.name.Same host) ↔
      ¬∃ literal, h.name = .ipv6 literal ∧ host = .ipv6 literal.addr := by
  obtain ⟨s, hs, hshown⟩ := huc candidate u host hparse hu
  rw [csrfOk_eq hhost hcandidate hparse hs]
  cases hname : h.name with
  | named text hne hvalid =>
    rw [same_named_iff hname hshown, hname]
    refine iff_of_true Iff.rfl ?_
    rintro ⟨literal, hliteral, -⟩
    cases hliteral
  | ipv6 literal =>
    rw [iff_false_left (not_same_ipv6 hname hshown)]
    refine not_congr ⟨fun hsame => ⟨literal, rfl, ?_⟩, ?_⟩
    · cases host with
      | domain name => exact hsame.elim
      | ipv4 ip => exact hsame.elim
      | ipv6 ip => rw [show literal.addr = ip from hsame]
    · rintro ⟨literal', hliteral, rfl⟩
      cases hliteral
      rfl

/-! ### Two requests -/

/-- The URLs of a site by its name and by its address. -/
def siteUrls : UrlCrate where
  parse input :=
    if input = "http://status.example.org" then
      some { scheme := "http"
             host := some (.domain "status.example.org")
             hostStr := some "status.example.org" }
    else if input = "http://[::1]:8080" then
      some { scheme := "http"
             host := some (.ipv6 1#128)
             hostStr := some "[::1]"
             port := some 8080 }
    else none
  toString u := u.scheme

theorem siteUrls_showsHosts : siteUrls.ShowsHosts := by
  intro input u host hparse hu
  unfold siteUrls at hparse
  dsimp only at hparse
  split at hparse
  · cases hparse
    cases hu
    exact ⟨_, rfl, rfl, by decide⟩
  · split at hparse
    · cases hparse
      cases hu
      exact ⟨_, rfl, "::1".toList, rfl⟩
    · cases hparse

def headerLine (s : String) : List UInt8 := s.toList.map fun c => c.toNat.toUInt8

/-- The name of the site, with a port. -/
def byName : HostHeader where
  name := .named "Status.example.org".toList (by decide) (List.all_eq_true.mp rfl)
  port := some "8080".toList
  digits := by
    rintro digits ⟨⟩
    exact List.all_eq_true.mp rfl

/-- The address `::1`, with a port. -/
def byAddress : HostHeader where
  name := .ipv6 ⟨[], some [⟨['1'], by decide, by decide, List.all_eq_true.mp rfl⟩], none, by decide⟩
  port := some "8080".toList
  digits := by
    rintro digits ⟨⟩
    exact List.all_eq_true.mp rfl

def nameHeaders : HeaderMap
  | "host" => [⟨headerLine "Status.example.org:8080", List.all_eq_true.mp rfl⟩]
  | "origin" => [⟨headerLine "http://status.example.org", List.all_eq_true.mp rfl⟩]
  | _ => []

def addressHeaders : HeaderMap
  | "host" => [⟨headerLine "[::1]:8080", List.all_eq_true.mp rfl⟩]
  | "origin" => [⟨headerLine "http://[::1]:8080", List.all_eq_true.mp rfl⟩]
  | _ => []

theorem csrf_ok_iff_byName :
    (csrfOk siteUrls nameHeaders = true ↔ byName.name.Same (.domain "status.example.org")) ↔
      ¬∃ literal, byName.name = .ipv6 literal ∧
        Host.domain "status.example.org" = .ipv6 literal.addr :=
  csrf_ok_iff siteUrls siteUrls_showsHosts nameHeaders byName "http://status.example.org" _ _
    (by decide) (by decide) rfl rfl

/-- **A site served from an IPv6 address takes no write actions.** -/
theorem address_refused :
    ¬∀ (uc : UrlCrate) (headers : HeaderMap) (h : HostHeader) (candidate : String) (u : Url)
      (host : Host), uc.ShowsHosts →
      (headers.get "host").bind HeaderValue.toStr = some h.text →
      (headers.get "origin" <|> headers.get "referer").bind HeaderValue.toStr = some candidate →
      uc.parse candidate = some u → u.host = some host →
      (csrfOk uc headers = true ↔ h.name.Same host) := by
  intro hall
  have hsame := hall siteUrls addressHeaders byAddress "http://[::1]:8080" _ (.ipv6 1#128)
    siteUrls_showsHosts (by decide) (by decide) rfl rfl
  exact absurd (hsame.mpr (by rfl)) (by decide)

end Dunlin
