import Dunlin.Messages

/-!
# The unsubscribe link in a message

Every renderer puts the link at the end of its text. The text before it is operators' and probes',
of any length, and two channels have a limit. Telegram's renderer fits the text around the link;
Discord's cuts the whole.

`link_kept_iff` says when the link is there.

To be there means to be spelled as the renderer spells a link in that place (`Spelled`): escaped in
HTML and JSON, within the limits. `Carries` says of one renderer and one message that it is.

## Scope

A message is any email wording with any link. Nothing is assumed of the texts in it, and an empty
link is one that is always there.

## Main results

* `carries_telegram` — the text is fitted around the link, so the link is there
* `carries_discord_iff` — what is cut at 4096 characters keeps the link only if both fit
* `link_kept_iff` — all renderers in one statement
* `cut_longUpdate` — a text that the operator can post, whose link is lost on Discord
-/

namespace Dunlin

/-- The renderers of a message. -/
inductive Renderer
  | email
  | slack
  | discord
  | json
  | telegram
  deriving DecidableEq, Repr

namespace Renderer

/-- The escaping of a channel. -/
def escape : Renderer → String → String
  | .slack, s | .telegram, s => slackEscape s
  | .email, s | .discord, s | .json, s => s

variable (chrono : Chrono) (d : Delivery) (now : ℤ)

/-- The part of the rendered message that is to hold the unsubscribe link. -/
def text : Renderer → Option String
  | .email => some (mail chrono d).body
  | .slack => (((slackPayload chrono d now).field "attachments").item 0).field "text" |>.asStr
  | .discord => (((discordPayload chrono d now).field "embeds").item 0).field "description" |>.asStr
  | .json => ((jsonPayload d now).field "meta").field "unsubscribe" |>.asStr
  | .telegram => some (render chrono d)

/-- The rendered message holds the whole unsubscribe link. -/
def Carries (r : Renderer) : Prop :=
  ∃ s, r.text chrono d now = some s ∧ (r.escape d.message.unsubscribeUrl).toList <:+: s.toList

end Renderer

section Links

variable (chrono : Chrono) (d : Delivery) (now : ℤ)

/-- The email wording and the link fit Discord's limit. -/
def Fits : Prop :=
  (trimEnd (compose chrono d).2).length + "\n\nUnsubscribe: ".length +
    d.message.unsubscribeUrl.length ≤ discordLimit

/-- The first characters of the text, as many as fit with an ellipsis, happen to spell the link. -/
def Spelled : Prop :=
  let kept := (chatText chrono d).2.toList.take (discordLimit - 1)
  d.message.unsubscribeUrl.toList <:+: kept ∨
    ∃ l, d.message.unsubscribeUrl.toList = l ++ ['…'] ∧ l <:+ kept

/-! ### Escaping -/

theorem toList_replaceChar (c : Char) (text s : String) :
    (replaceChar c text s).toList = s.toList.flatMap fun x => if x = c then text.toList else [x] :=
  String.toList_ofList

theorem replaceChar_append (c : Char) (text s t : String) :
    replaceChar c text (s ++ t) = replaceChar c text s ++ replaceChar c text t := by
  apply String.toList_injective
  simp only [toList_replaceChar, String.toList_append, List.flatMap_append]

/-- Escaping works character by character. -/
theorem slackEscape_append (s t : String) :
    slackEscape (s ++ t) = slackEscape s ++ slackEscape t := by
  unfold slackEscape
  rw [replaceChar_append, replaceChar_append, replaceChar_append]

/-! ### The text of each renderer -/

theorem chatText_snd : (chatText chrono d).2 =
    trimEnd (compose chrono d).2 ++ "\n\nUnsubscribe: " ++ d.message.unsubscribeUrl := rfl

theorem length_chatText : (chatText chrono d).2.length =
    (trimEnd (compose chrono d).2).length + "\n\nUnsubscribe: ".length +
      d.message.unsubscribeUrl.length := by
  rw [chatText_snd, String.length_append, String.length_append]

/-- A text that ends in the link. -/
theorem infix_of_append {s t u : String} (h : s = t ++ u) : u.toList <:+: s.toList := by
  rw [h, String.toList_append]
  exact List.suffix_append _ _ |>.isInfix

theorem text_slack : Renderer.slack.text chrono d now =
    some (slackEscape (chatText chrono d).2) := by
  rw [Renderer.text, slackPayload]
  cases link d <;> rfl

theorem text_discord : Renderer.discord.text chrono d now =
    some (truncateChars (chatText chrono d).2 discordLimit) := by
  rw [Renderer.text, discordPayload]
  cases link d <;> rfl

theorem text_json : Renderer.json.text chrono d now = some d.message.unsubscribeUrl := by
  rw [Renderer.text, jsonPayload]
  cases d.message with
  | confirm confirmUrl unsubscribeUrl => rfl
  | event event unsubscribeUrl => cases event <;> rfl

theorem carries_email : Renderer.email.Carries chrono d now := by
  refine ⟨_, rfl, ?_⟩
  have hbody : (mail chrono d).body = (compose chrono d).2 ++
      s!"\n-- \nYou get this because you subscribed to updates from {d.siteTitle}.\n" ++
      "Unsubscribe: " ++ d.message.unsubscribeUrl ++ "\n" := by
    rw [mail]
    simp only [String.append_assoc, toString]
  rw [hbody, String.toList_append]
  exact (infix_of_append rfl).trans (List.prefix_append _ _).isInfix

theorem carries_slack : Renderer.slack.Carries chrono d now := by
  refine ⟨_, text_slack chrono d now, infix_of_append (t := slackEscape
    (trimEnd (compose chrono d).2 ++ "\n\nUnsubscribe: ")) ?_⟩
  rw [chatText_snd, slackEscape_append]
  rfl

theorem carries_json : Renderer.json.Carries chrono d now :=
  ⟨_, text_json chrono d now, List.infix_refl _⟩

theorem carries_telegram : Renderer.telegram.Carries chrono d now := by
  refine ⟨_, rfl, ?_⟩
  -- the foot is outside what is cut
  have hfoot : (slackEscape d.message.unsubscribeUrl).toList <:+:
      ("\n\nUnsubscribe: send /stop or open " ++ slackEscape d.message.unsubscribeUrl).toList :=
    infix_of_append rfl
  exact hfoot.trans (infix_of_append (s := render chrono d) rfl)

/-- Cutting keeps a piece of text exactly when it is not needed or the piece comes early. -/
theorem infix_truncateChars_iff (u s : String) (max : ℕ) :
    u.toList <:+: (truncateChars s max).toList ↔
      s.length ≤ max ∧ u.toList <:+: s.toList ∨ max < s.length ∧
        (u.toList <:+: s.toList.take (max - 1) ∨
          ∃ l, u.toList = l ++ ['…'] ∧ l <:+ s.toList.take (max - 1)) := by
  rw [truncateChars]
  split
  · rename_i hle
    simp [hle, Nat.not_lt.mpr hle]
  · rename_i hgt
    have hlt : max < s.length := by omega
    rw [String.toList_ofList, List.infix_concat_iff, List.suffix_concat_iff]
    simp only [hgt, hlt, false_and, true_and, false_or]
    constructor
    · rintro ((hnil | h) | h)
      · exact .inl (hnil ▸ List.nil_infix)
      · exact .inr h
      · exact .inl h
    · rintro (h | h)
      · exact .inr h
      · exact .inl (.inr h)

theorem carries_discord_iff :
    Renderer.discord.Carries chrono d now ↔ Fits chrono d ∨ Spelled chrono d := by
  have hlink : d.message.unsubscribeUrl.toList <:+: (chatText chrono d).2.toList :=
    infix_of_append (chatText_snd chrono d)
  have hfits : Fits chrono d ↔ (chatText chrono d).2.length ≤ discordLimit := by
    rw [Fits, length_chatText]
  have hcarries : Renderer.discord.Carries chrono d now ↔ d.message.unsubscribeUrl.toList <:+:
      (truncateChars (chatText chrono d).2 discordLimit).toList := by
    rw [Renderer.Carries, text_discord]
    constructor
    · rintro ⟨s, hs, h⟩
      obtain rfl := Option.some.inj hs
      exact h
    · intro h
      exact ⟨_, rfl, h⟩
  rw [hcarries, infix_truncateChars_iff, hfits]
  constructor
  · rintro (⟨hle, -⟩ | ⟨-, hspelled⟩)
    · exact .inl hle
    · exact .inr hspelled
  · rintro (hle | hspelled)
    · exact .inl ⟨hle, hlink⟩
    · rcases Nat.lt_or_ge discordLimit (chatText chrono d).2.length with hlt | hle
      · exact .inr ⟨hlt, hspelled⟩
      · exact .inl ⟨hle, hlink⟩

/-- **The unsubscribe link is in every message**, whatever the texts in it, except on Discord when
the email wording and the link are longer than a description may be. -/
theorem link_kept_iff (r : Renderer) :
    r.Carries chrono d now ↔ (r = .discord → Fits chrono d ∨ Spelled chrono d) := by
  cases r with
  | email => exact iff_of_true (carries_email chrono d now) (fun h => nomatch h)
  | slack => exact iff_of_true (carries_slack chrono d now) (fun h => nomatch h)
  | json => exact iff_of_true (carries_json chrono d now) (fun h => nomatch h)
  | telegram => exact iff_of_true (carries_telegram chrono d now) (fun h => nomatch h)
  | discord =>
    rw [carries_discord_iff]
    exact ⟨fun h _ => h, fun h => h rfl⟩

end Links

/-! ### A text too long for Discord -/

theorem trimEnd_append_newline {s : String} {c : Char} (hlast : s.toList.getLast? = some c)
    (hc : isWhitespace c = false) : trimEnd (s ++ "\n") = s := by
  obtain ⟨l, hl⟩ := List.getLast?_eq_some_iff.mp hlast
  apply String.toList_injective
  rw [trimEnd, String.toList_ofList, String.toList_append, hl]
  have hnew : isWhitespace '\n' = true := by decide
  simp [hnew, hc]

/-- An operator's update, `n` characters long, on its way to Discord. -/
def longUpdate (n : ℕ) : Delivery where
  address := "https://discord.com/api/webhooks/1/a"
  siteTitle := "Status"
  timezone := "UTC"
  siteUrl := none
  message := .event (.incidentUpdated
    { incidentId := 1, title := "Outage", component := "web", componentName := "Web",
      impact := "major_outage", state := "identified",
      message := String.ofList (List.replicate n 'x'), url := none })
    "https://status.example.org/unsubscribe/k"

/-- Without a timezone database. -/
def noZones : Chrono := ⟨fun _ _ => none, fun _ => ""⟩

/-- What the text of `longUpdate` starts with. -/
def heading : String := "Outage\nWeb · Major outage · Identified\n\n"

theorem compose_longUpdate (n : ℕ) : (compose noZones (longUpdate n)).2 =
    heading ++ trim (String.ofList (List.replicate n 'x')) ++ "\n" := by
  have hheading : heading =
      "Outage" ++ "\n" ++ "Web" ++ " · " ++ impactLabel "major_outage" ++ " · " ++
      stateLabel "identified" ++ "\n\n" := by decide
  simp only [compose, longUpdate, incidentBody, hheading, toString, String.append_assoc]

theorem toList_chatText_longUpdate {n : ℕ} (hn : 0 < n) :
    (chatText noZones (longUpdate n)).2.toList = heading.toList ++ List.replicate n 'x' ++
      ("\n\nUnsubscribe: ".toList ++ (longUpdate n).message.unsubscribeUrl.toList) := by
  have hx : ∀ c ∈ List.replicate n 'x', isWhitespace c = false := by
    intro c hc
    rw [List.eq_of_mem_replicate hc]
    decide
  have htrim : trim (String.ofList (List.replicate n 'x')) = String.ofList (List.replicate n 'x') :=
    @trim_visible [] _ (fun c hc => absurd hc List.not_mem_nil) hx
  have hlast : (heading ++ String.ofList (List.replicate n 'x')).toList.getLast? = some 'x' := by
    rw [String.toList_append, String.toList_ofList, List.getLast?_append, List.getLast?_replicate,
      if_neg (Nat.ne_of_gt hn), Option.some_or]
  rw [chatText_snd, compose_longUpdate, htrim, trimEnd_append_newline hlast (by decide)]
  simp only [String.toList_append, String.toList_ofList, List.append_assoc]

/-- **A long update loses its link on Discord.** -/
theorem cut_longUpdate : ¬Renderer.discord.Carries noZones (longUpdate 4096) 0 := by
  have htext := toList_chatText_longUpdate (n := 4096) (by decide)
  rw [carries_discord_iff]
  rintro (hfits | hspelled)
  · rw [Fits, ← length_chatText, ← String.length_toList, htext] at hfits
    simp only [List.length_append, List.length_replicate, discordLimit] at hfits
    have hnonempty : 0 < heading.toList.length := by decide
    omega
  · -- what is kept of the text has no slash
    have hkept : ∀ c ∈ (chatText noZones (longUpdate 4096)).2.toList.take (discordLimit - 1),
        c ∈ heading.toList ∨ c = 'x' := by
      rw [htext, List.take_append_of_le_length (by
        simp only [List.length_append, List.length_replicate, discordLimit]; omega)]
      intro c hc
      rcases List.mem_append.mp (List.mem_of_mem_take hc) with hc | hc
      · exact .inl hc
      · exact .inr (List.eq_of_mem_replicate hc)
    rcases hspelled with hpart | ⟨l, hl, -⟩
    · have hslash : '/' ∈ (longUpdate 4096).message.unsubscribeUrl.toList := by decide
      rcases hkept '/' (hpart.subset hslash) with hmem | heq
      · exact absurd hmem (by decide)
      · exact absurd heq (by decide)
    · have hlast := congrArg List.getLast? hl
      rw [List.getLast?_concat] at hlast
      exact absurd hlast (by decide)

end Dunlin
