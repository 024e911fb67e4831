import Dunlin.Models
import Mathlib.Data.List.TakeWhile
import Mathlib.Logic.Function.Basic

/-!
# The address of a client

The model of `client_ip` in `web_auth.rs`, which login and sign-up are limited by. Behind a trusted
proxy the address comes from headers, and the client sends headers too: the one entry to go by is
the one the proxy adds to `X-Forwarded-For`.

A proxy may add it in two ways: to the end of the last line of that header, or as a line of its own.
`client_ip_iff` says when the client cannot choose what `client_ip` returns: when `X-Forwarded-For`
is a single line, which the proxy wrote to, and readable.

## Scope

A header value is a list of bytes, as `http` has it; only visible ASCII can be read as a text. The
proxy writes an address without commas and blanks, and what it does with the other headers is left
to it (`Shields`).

## Main results

* `clientIp_forward` — with one readable line, the answer is the proxy's entry
* `client_ip_iff` — exactly when two requests of one client get one answer
* `chosen_address` — a client that writes the answer itself
-/

namespace Dunlin

/-! ### Headers -/

/-- A byte `HeaderValue::from_bytes` takes. -/
def headerByte (b : UInt8) : Bool := (32 ≤ b && b != 127) || b == 9

/-- `http::HeaderValue`. -/
structure HeaderValue where
  bytes : List UInt8
  valid : ∀ b ∈ bytes, headerByte b = true

def visibleAscii (b : UInt8) : Bool := (32 ≤ b && b < 127) || b == 9

def asciiChar (b : UInt8) : Char := Char.ofNat b.toNat

/-- The text of ASCII bytes. -/
def ascii (bytes : List UInt8) : String := String.ofList (bytes.map asciiChar)

namespace HeaderValue

/-- `HeaderValue::to_str`: only values of visible ASCII have a text. -/
def toStr (v : HeaderValue) : Option String :=
  if v.bytes.all visibleAscii then some (ascii v.bytes) else none

def append (v w : HeaderValue) : HeaderValue where
  bytes := v.bytes ++ w.bytes
  valid := by
    intro b hb
    rcases List.mem_append.mp hb with hb | hb
    · exact v.valid b hb
    · exact w.valid b hb

end HeaderValue

/-- `http::HeaderMap`: the lines of each header, in order. -/
abbrev HeaderMap := String → List HeaderValue

/-- `HeaderMap::get`: the first line. -/
def HeaderMap.get (headers : HeaderMap) (name : String) : Option HeaderValue := (headers name).head?

/-- What comes after the last comma. -/
def lastEntry (s : String) : String :=
  String.ofList (s.toList.reverse.takeWhile (· ≠ ',')).reverse

/-- What a header line is trimmed to, unless nothing is left of it. -/
def nonEmpty (s : String) : Option String := if trim s = "" then none else some (trim s)

/-- Client IP: the socket by default, proxy headers only when explicitly trusted. The socket is
given as the text of its address. -/
def clientIp (headers : HeaderMap) (socket : Option String) (trustedProxy : Bool) : String :=
  let direct := socket.getD "unknown"
  if trustedProxy then
    match (headers.get "x-forwarded-for").bind HeaderValue.toStr
        |>.bind (nonEmpty <| lastEntry ·) with
    | some last => last
    | none =>
      match (headers.get "x-real-ip").bind HeaderValue.toStr |>.bind nonEmpty with
      | some real => real
      | none => direct
  else direct

/-! ### The proxy -/

/-- A byte of an address as text. -/
def addressByte (b : UInt8) : Bool :=
  (48 ≤ b && b ≤ 57) || (97 ≤ b && b ≤ 102) || b == 46 || b == 58

/-- The text of an IPv4 or IPv6 address, as the proxy writes it. -/
structure Address where
  bytes : List UInt8
  nonempty : bytes ≠ []
  valid : ∀ b ∈ bytes, addressByte b = true

/-- How a proxy adds to a list that a header holds. -/
inductive Appending
  /-- A comma, blanks and the entry, at the end of the last line. -/
  | toLastLine (blanks : ℕ)
  | ownLine
  deriving DecidableEq, Repr

theorem headerByte_of_addressByte {b : UInt8} (h : addressByte b = true) : headerByte b = true := by
  simp only [addressByte, headerByte, Bool.or_eq_true, Bool.and_eq_true, decide_eq_true_eq,
    beq_iff_eq, bne_iff_ne, UInt8.le_iff_toNat_le, ← UInt8.toNat_inj, ne_eq] at h ⊢
  simp at h ⊢
  omega

namespace Address

def text (a : Address) : String := ascii a.bytes

/-- The address as a header line. -/
def line (a : Address) : HeaderValue :=
  ⟨a.bytes, fun b hb => headerByte_of_addressByte (a.valid b hb)⟩

/-- The address as a further entry of a header line. -/
def entry (a : Address) (blanks : ℕ) : HeaderValue where
  bytes := 44 :: List.replicate blanks 32 ++ a.bytes
  valid := by
    intro b hb
    rcases List.mem_append.mp hb with hb | hb
    · rcases List.mem_cons.mp hb with rfl | hb
      · decide
      · rw [List.eq_of_mem_replicate hb]
        decide
    · exact headerByte_of_addressByte (a.valid b hb)

end Address

/-- Write more at the end of the last line. -/
def appendToLast (more : HeaderValue) : List HeaderValue → List HeaderValue
  | [] => []
  | [v] => [v.append more]
  | v :: vs => v :: appendToLast more vs

namespace Appending

/-- The lines of `X-Forwarded-For` once the proxy has added an address. -/
def lines (a : Address) : Appending → List HeaderValue → List HeaderValue
  | _, [] => [a.line]
  | .toLastLine blanks, v :: vs => appendToLast (a.entry blanks) (v :: vs)
  | .ownLine, v :: vs => v :: vs ++ [a.line]

/-- What the proxy makes of a request. -/
def forward (p : Appending) (a : Address) (headers : HeaderMap) : HeaderMap :=
  Function.update headers "x-forwarded-for" (p.lines a (headers "x-forwarded-for"))

/-- The client's lines leave the proxy the only line, and a readable one. -/
def Shields (p : Appending) (forwarded : List HeaderValue) : Prop :=
  forwarded = [] ∨ ∃ v blanks, forwarded = [v] ∧ p = .toLastLine blanks ∧ v.toStr ≠ none

end Appending

/-- A request with these lines of the two headers, and otherwise like `headers`. -/
def HeaderMap.sent (headers : HeaderMap) (forwarded real : List HeaderValue) : HeaderMap :=
  Function.update (Function.update headers "x-forwarded-for" forwarded) "x-real-ip" real

/-! ### The last entry is the proxy's -/

theorem toNat_asciiChar (b : UInt8) : (asciiChar b).toNat = b.toNat := by
  have hb : b.toNat < 256 := b.toNat_lt
  have hvalid : b.toNat.isValidChar := .inl (by omega)
  rw [asciiChar, Char.ofNat, dif_pos hvalid]
  rfl

namespace Address

variable (a : Address)

theorem byte_bounds {b : UInt8} (hb : b ∈ a.bytes) :
    (48 ≤ b.toNat ∧ b.toNat ≤ 57) ∨ (97 ≤ b.toNat ∧ b.toNat ≤ 102) ∨ b.toNat = 46 ∨
      b.toNat = 58 := by
  have h := a.valid b hb
  simp only [addressByte, Bool.or_eq_true, Bool.and_eq_true, decide_eq_true_eq, beq_iff_eq,
    UInt8.le_iff_toNat_le, ← UInt8.toNat_inj] at h
  simp at h
  omega

/-- No blank and no comma is part of an address. -/
theorem char_plain {c : Char} (hc : c ∈ a.bytes.map asciiChar) :
    isWhitespace c = false ∧ c ≠ ',' := by
  obtain ⟨b, hb, rfl⟩ := List.mem_map.mp hc
  have hbounds := a.byte_bounds hb
  constructor
  · simp only [isWhitespace, toNat_asciiChar, Bool.or_eq_false_iff, Bool.and_eq_false_iff,
      decide_eq_false_iff_not, beq_eq_false_iff_ne]
    omega
  · intro heq
    have hnat := congrArg Char.toNat heq
    rw [toNat_asciiChar, show (',' : Char).toNat = 44 from rfl] at hnat
    omega

theorem visible {b : UInt8} (hb : b ∈ a.bytes) : visibleAscii b = true := by
  have hbounds := a.byte_bounds hb
  simp only [visibleAscii, Bool.or_eq_true, Bool.and_eq_true, decide_eq_true_eq, beq_iff_eq,
    UInt8.le_iff_toNat_le, UInt8.lt_iff_toNat_lt, ← UInt8.toNat_inj]
  simp
  omega

/-- Blanks before an address are trimmed away. -/
theorem nonEmpty_text (blanks : ℕ) :
    nonEmpty (String.ofList (List.replicate blanks ' ' ++ a.bytes.map asciiChar)) =
      some a.text := by
  have htrim : trim (String.ofList (List.replicate blanks ' ' ++ a.bytes.map asciiChar)) =
      a.text := by
    refine trim_visible (fun c hc => ?_) fun c hc => (a.char_plain hc).1
    rw [List.eq_of_mem_replicate hc]
    decide
  have hne : a.text ≠ "" := by
    intro hempty
    have hchars := congrArg String.toList hempty
    rw [text, ascii, String.toList_ofList] at hchars
    exact a.nonempty (List.map_eq_nil_iff.mp hchars)
  rw [nonEmpty, htrim, if_neg hne]

theorem toStr_line : a.line.toStr = some a.text :=
  if_pos (List.all_eq_true.mpr fun _ hb => a.visible hb)

theorem lastEntry_text : lastEntry a.text = a.text := by
  rw [lastEntry, text, ascii, String.toList_ofList, List.takeWhile_eq_self_iff.mpr ?_,
    List.reverse_reverse]
  intro c hc
  simpa using (a.char_plain (List.mem_reverse.mp hc)).2

end Address

/-- What follows the last comma. -/
theorem lastEntry_comma {l entry : List Char} (h : ∀ c ∈ entry, c ≠ ',') :
    lastEntry (String.ofList (l ++ ',' :: entry)) = String.ofList entry := by
  have hrev : (l ++ ',' :: entry).reverse = entry.reverse ++ ',' :: l.reverse := by simp
  rw [lastEntry, String.toList_ofList, hrev, List.takeWhile_append_of_pos fun c hc => by
    simpa using h c (List.mem_reverse.mp hc)]
  simp

/-- A line the client wrote and the proxy added to. -/
theorem toStr_append_entry (v : HeaderValue) (a : Address) (blanks : ℕ) :
    (v.append (a.entry blanks)).toStr =
      v.toStr.map fun s => String.ofList (s.toList ++ ',' :: (List.replicate blanks ' ' ++
        a.bytes.map asciiChar)) := by
  have hentry : (a.entry blanks).bytes.all visibleAscii = true := by
    rw [List.all_eq_true]
    intro b hb
    rcases List.mem_append.mp hb with hb | hb
    · rcases List.mem_cons.mp hb with rfl | hb
      · decide
      · rw [List.eq_of_mem_replicate hb]
        decide
    · exact a.visible hb
  unfold HeaderValue.toStr HeaderValue.append
  rw [List.all_append, hentry, Bool.and_true]
  split
  · rw [Option.map_some, ascii, ascii, String.toList_ofList, List.map_append]
    have hmap : (a.entry blanks).bytes.map asciiChar =
        ',' :: (List.replicate blanks ' ' ++ a.bytes.map asciiChar) := by
      rw [Address.entry, List.map_append, List.map_cons, List.map_replicate]
      rfl
    rw [hmap]
  · rfl

/-! ### Which client cannot choose -/

section Client

variable {p : Appending} {headers : HeaderMap} {socket : Option String}

theorem forward_get (a : Address) :
    (p.forward a headers).get "x-forwarded-for" =
      (p.lines a (headers "x-forwarded-for")).head? := by
  rw [HeaderMap.get, Appending.forward, Function.update_self]

/-- The first line decides. -/
theorem clientIp_of_entry {v : HeaderValue} {ip : String}
    (hget : headers.get "x-forwarded-for" = some v)
    (hentry : v.toStr.bind (nonEmpty <| lastEntry ·) = some ip) :
    clientIp headers socket true = ip := by
  rw [clientIp, hget]
  simp only [if_true, Option.bind_some, hentry]

/-- What the proxy adds is returned. -/
theorem clientIp_forward (a : Address) (h : p.Shields (headers "x-forwarded-for")) :
    clientIp (p.forward a headers) socket true = a.text := by
  rcases h with hnone | ⟨v, blanks, hline, rfl, hread⟩
  · refine clientIp_of_entry (v := a.line) ?_ ?_
    · rw [forward_get, hnone]
      rfl
    · rw [a.toStr_line, Option.bind_some, a.lastEntry_text]
      exact a.nonEmpty_text 0
  · refine clientIp_of_entry (v := v.append (a.entry blanks)) ?_ ?_
    · rw [forward_get, hline]
      rfl
    · obtain ⟨s, hs⟩ := Option.ne_none_iff_exists'.mp hread
      rw [toStr_append_entry, hs, Option.map_some, Option.bind_some, lastEntry_comma,
        a.nonEmpty_text]
      intro c hc
      rcases List.mem_append.mp hc with hc | hc
      · rw [List.eq_of_mem_replicate hc]
        decide
      · exact (a.char_plain hc).2

/-- Otherwise the proxy's address is not even read. -/
theorem clientIp_forward_congr (a b : Address) (h : ¬p.Shields (headers "x-forwarded-for")) :
    clientIp (p.forward a headers) socket true = clientIp (p.forward b headers) socket true := by
  have hreal : ∀ a, (p.forward a headers).get "x-real-ip" = headers.get "x-real-ip" := by
    intro a
    rw [HeaderMap.get, Appending.forward, Function.update_of_ne (by decide)]
    rfl
  have hread : ((p.forward a headers).get "x-forwarded-for").bind HeaderValue.toStr =
      ((p.forward b headers).get "x-forwarded-for").bind HeaderValue.toStr := by
    rw [forward_get, forward_get]
    cases hlines : headers "x-forwarded-for" with
    | nil => exact absurd (.inl hlines) h
    | cons v vs =>
      cases p with
      | ownLine => rfl
      | toLastLine blanks =>
        cases vs with
        | cons v' vs => rfl
        | nil =>
          have hunread : v.toStr = none := by
            by_contra hne
            exact h (.inr ⟨v, blanks, hlines, rfl, hne⟩)
          show ((v.append (a.entry blanks)).toStr) = ((v.append (b.entry blanks)).toStr)
          rw [toStr_append_entry, toStr_append_entry, hunread]
          rfl
  simp only [clientIp, hread, hreal]

end Client

theorem sent_forwarded (headers : HeaderMap) (forwarded real : List HeaderValue) :
    headers.sent forwarded real "x-forwarded-for" = forwarded := by
  rw [HeaderMap.sent, Function.update_of_ne (by decide), Function.update_self]

/-- `1.1.1.1`. -/
def ones : Address := ⟨[49, 46, 49, 46, 49, 46, 49], by decide, List.all_eq_true.mp rfl⟩

/-- `2.2.2.2`. -/
def twos : Address := ⟨[50, 46, 50, 46, 50, 46, 50], by decide, List.all_eq_true.mp rfl⟩

theorem text_ones_ne_twos : ones.text ≠ twos.text := by decide

/-- **A client cannot choose its address.** Take two requests that differ in nothing but the lines
of `X-Forwarded-For` and `X-Real-IP` the client wrote. Whatever address the proxy adds, `client_ip`
returns it for both, exactly when each leaves the proxy's as the only line, and a readable one. -/
theorem client_ip_iff (p : Appending) (headers : HeaderMap) (socket : Option String)
    (forwarded real forwarded' real' : List HeaderValue) :
    (∀ a : Address, clientIp (p.forward a (headers.sent forwarded real)) socket true = a.text ∧
      clientIp (p.forward a (headers.sent forwarded' real')) socket true = a.text) ↔
    p.Shields forwarded ∧ p.Shields forwarded' := by
  have hiff : ∀ f r,
      (∀ a : Address, clientIp (p.forward a (headers.sent f r)) socket true = a.text) ↔
        p.Shields f := by
    intro f r
    constructor
    · intro hall
      by_contra hexposed
      rw [← sent_forwarded headers f r] at hexposed
      have hsame : clientIp (p.forward ones (headers.sent f r)) socket true =
          clientIp (p.forward twos (headers.sent f r)) socket true :=
        clientIp_forward_congr ones twos hexposed
      rw [hall, hall] at hsame
      exact text_ones_ne_twos hsame
    · intro hshields a
      rw [← sent_forwarded headers f r] at hshields
      exact clientIp_forward a hshields
  rw [forall_and, hiff, hiff]

/-- The client's own header line, `6.6.6.6`. -/
def sixes : HeaderValue := ⟨[54, 46, 54, 46, 54, 46, 54], List.all_eq_true.mp rfl⟩

/-- **A client that chooses its address**, with a line of its own in front of the proxy's. -/
theorem chosen_address :
    clientIp (Appending.ownLine.forward ones (HeaderMap.sent (fun _ => []) [] []))
      (some "127.0.0.1") true = ones.text ∧
    clientIp (Appending.ownLine.forward ones (HeaderMap.sent (fun _ => []) [sixes] []))
      (some "127.0.0.1") true = "6.6.6.6" ∧
    ones.text ≠ "6.6.6.6" := by
  decide

end Dunlin
