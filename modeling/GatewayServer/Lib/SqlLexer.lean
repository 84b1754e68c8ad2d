import Mathlib.Data.List.Count
import Mathlib.Data.List.TakeWhile

/-!
# Lexing SQL text

The part of PostgreSQL's lexical structure that plain statements use, with
`standard_conforming_strings` on: words, symbols, comments up to the end of a line, and string
literals. A literal ends at the first quote that is not doubled, and a doubled quote stands for
one. On top of the lexer, statements with values put between quotes: they lex to the statement
that is meant exactly when no value has a quote.

## Main definitions

* `Sql.Token`, `Sql.lex` — tokens, and the tokens of a text
* `Sql.Template` — fixed text with values between quotes

## Main results

* `Sql.scan_append` — a text is scanned piece by piece
* `Sql.weight_le_of_lex` — literals use up quotes
* `Sql.mem_of_lex` — the characters of a literal come from the text
* `Sql.Template.lex_text_iff` — when a statement lexes to what is meant
* `Sql.Template.lex_takeWhile_iff` — the same for a reader that stops at a character
-/

namespace Lib.Sql

/-- A token. A word is a keyword, a name or a number. -/
inductive Token where
  | word (text : List Char)
  | literal (value : List Char)
  | symbol (c : Char)
  deriving DecidableEq, Repr

/-- What the scanner is in the middle of. -/
inductive Mode where
  | plain
  | word (text : List Char)
  | literal (value : List Char)
  /-- Inside a literal, after a quote that may end it. -/
  | quote (value : List Char)
  /-- After a dash. -/
  | dash
  | comment
  deriving DecidableEq, Repr

/-- The characters of words: letters, digits and underscores, and all beyond ASCII. -/
def isWordChar (c : Char) : Bool := c.isAlphanum || c = '_' || 128 ≤ c.toNat

/-- A character met outside of everything. -/
def begin (c : Char) : List Token × Mode :=
  if c = '\'' then ([], .literal [])
  else if c = '-' then ([], .dash)
  else if isWordChar c then ([], .word [c])
  else if c.isWhitespace then ([], .plain)
  else ([.symbol c], .plain)

/-- A token that is complete, and then a character outside of everything. -/
def emit (token : Token) (c : Char) : List Token × Mode := (token :: (begin c).1, (begin c).2)

/-- One character. -/
def step : Mode → Char → List Token × Mode
  | .plain, c => begin c
  | .word text, c => if isWordChar c then ([], .word (text ++ [c])) else emit (.word text) c
  | .literal value, c => if c = '\'' then ([], .quote value) else ([], .literal (value ++ [c]))
  | .quote value, c =>
    if c = '\'' then ([], .literal (value ++ ['\''])) else emit (.literal value) c
  | .dash, c => if c = '-' then ([], .comment) else emit (.symbol '-') c
  | .comment, c => if c = '\n' then ([], .plain) else ([], .comment)

/-- The end of the text. There is none inside a literal. -/
def finish : Mode → Option (List Token)
  | .plain => some []
  | .word text => some [.word text]
  | .literal _ => none
  | .quote value => some [.literal value]
  | .dash => some [.symbol '-']
  | .comment => some []

/-- The tokens completed in a text, and what the scanner is in the middle of after it. -/
def scan : Mode → List Char → List Token × Mode
  | mode, [] => ([], mode)
  | mode, c :: cs => ((step mode c).1 ++ (scan (step mode c).2 cs).1, (scan (step mode c).2 cs).2)

/-- The tokens of a text; none when it ends inside a literal. -/
def lex (text : List Char) : Option (List Token) :=
  (finish (scan .plain text).2).map ((scan .plain text).1 ++ ·)

example : lex "a='it''s';--b".toList =
    some [.word ['a'], .symbol '=', .literal "it's".toList, .symbol ';'] := by decide

theorem scan_append (mode : Mode) (cs cs' : List Char) :
    scan mode (cs ++ cs') =
      ((scan mode cs).1 ++ (scan (scan mode cs).2 cs').1, (scan (scan mode cs).2 cs').2) := by
  induction cs generalizing mode with
  | nil => simp [scan]
  | cons c cs ih => simp [scan, ih]

/-- A value without quotes stays inside its literal. -/
theorem scan_literal {value : List Char} (h : '\'' ∉ value) (before : List Char) :
    scan (.literal before) value = ([], .literal (before ++ value)) := by
  induction value generalizing before with
  | nil => simp [scan]
  | cons c value ih =>
    have hne : c ≠ '\'' := by
      rintro rfl
      exact h List.mem_cons_self
    have hvalue : '\'' ∉ value := fun hmem => h (List.mem_cons_of_mem _ hmem)
    simp [scan, step, hne, ih hvalue]

/-- A run of word characters stays inside its word. -/
theorem scan_word {text : List Char} (h : ∀ c ∈ text, isWordChar c = true) (before : List Char) :
    scan (.word before) text = ([], .word (before ++ text)) := by
  induction text generalizing before with
  | nil => simp [scan]
  | cons c text ih =>
    have hc := h c List.mem_cons_self
    have htext := ih (fun c hc => h c (List.mem_cons_of_mem _ hc)) (before ++ [c])
    simp [scan, step, hc, htext]

/-! ## What a text has to contain -/

/-- The quotes that the text of a token has at least. -/
def Token.weight : Token → ℕ
  | .literal value => 2 + 2 * value.count '\''
  | _ => 0

/-- The quotes that the text of some tokens has at least. -/
def weight : List Token → ℕ
  | [] => 0
  | token :: tokens => token.weight + weight tokens

/-- The quotes that belong to what the scanner is in the middle of. -/
def Mode.weight : Mode → ℕ
  | .literal value => 1 + 2 * value.count '\''
  | .quote value => 2 + 2 * value.count '\''
  | _ => 0

@[simp] theorem Mode.weight_plain : Mode.plain.weight = 0 := rfl

@[simp] theorem Mode.weight_word (text : List Char) : (Mode.word text).weight = 0 := rfl

@[simp] theorem Mode.weight_literal (value : List Char) :
    (Mode.literal value).weight = 1 + 2 * value.count '\'' := rfl

@[simp] theorem Mode.weight_quote (value : List Char) :
    (Mode.quote value).weight = 2 + 2 * value.count '\'' := rfl

@[simp] theorem Mode.weight_dash : Mode.dash.weight = 0 := rfl

@[simp] theorem Mode.weight_comment : Mode.comment.weight = 0 := rfl

@[simp] theorem weight_nil : weight [] = 0 := rfl

@[simp] theorem weight_cons (token : Token) (tokens : List Token) :
    weight (token :: tokens) = token.weight + weight tokens := rfl

@[simp] theorem weight_append (tokens tokens' : List Token) :
    weight (tokens ++ tokens') = weight tokens + weight tokens' := by
  induction tokens with
  | nil => simp
  | cons token tokens ih =>
    simp only [List.cons_append, weight_cons, ih]
    omega

theorem weight_begin (c : Char) :
    weight (begin c).1 + (begin c).2.weight ≤ [c].count '\'' := by
  unfold begin
  by_cases hc : c = '\''
  · subst hc
    decide
  · rw [if_neg hc]
    split
    · simp
    · split
      · simp
      · split <;> simp [Token.weight]

theorem weight_emit (token : Token) (c : Char) :
    weight (emit token c).1 + (emit token c).2.weight ≤ token.weight + [c].count '\'' := by
  have hbegin := weight_begin c
  simp only [emit, weight_cons]
  omega

/-- A character adds to the tokens and to what is open no more quotes than it is. -/
theorem weight_step (mode : Mode) (c : Char) :
    weight (step mode c).1 + (step mode c).2.weight ≤ mode.weight + [c].count '\'' := by
  cases mode with
  | plain => simpa [step] using weight_begin c
  | word text =>
    simp only [step]
    split
    · simp
    · exact weight_emit (.word text) c
  | literal value =>
    simp only [step]
    by_cases hc : c = '\''
    -- the quote may close the literal
    · simp [hc]
      omega
    · simp [hc]
  | quote value =>
    simp only [step]
    by_cases hc : c = '\''
    -- or it is the second of two, and stands for one
    · simp [hc]
      omega
    · rw [if_neg hc]
      exact weight_emit (.literal value) c
  | dash =>
    simp only [step]
    split
    · simp
    · exact weight_emit (.symbol '-') c
  | comment =>
    simp only [step]
    split <;> simp

theorem weight_scan (mode : Mode) (cs : List Char) :
    weight (scan mode cs).1 + (scan mode cs).2.weight ≤ mode.weight + cs.count '\'' := by
  induction cs generalizing mode with
  | nil => simp [scan]
  | cons c cs ih =>
    have hstep := weight_step mode c
    have hrest := ih (step mode c).2
    have hcount : (c :: cs).count '\'' = [c].count '\'' + cs.count '\'' :=
      @List.count_append Char _ '\'' [c] cs
    simp only [scan, weight_append, hcount]
    omega

/-- Each literal of a text takes two quotes, and two more for each quote in its value. -/
theorem weight_le_of_lex {text : List Char} {tokens : List Token} (h : lex text = some tokens) :
    weight tokens ≤ text.count '\'' := by
  -- the tokens are those completed on the way and the one that the end completes
  obtain ⟨ending, hending, rfl⟩ := Option.map_eq_some_iff.mp h
  have hscan := weight_scan .plain text
  have hfinish : weight ending ≤ (scan .plain text).2.weight := by
    -- at the end nothing is added to what is open, and an open literal is refused
    cases hmode : (scan .plain text).2 <;> rw [hmode] at hending <;>
      simp only [finish, Option.some.injEq, reduceCtorEq] at hending <;> subst hending <;>
      simp [Token.weight, Mode.weight]
  have hplain : Mode.plain.weight = 0 := rfl
  rw [weight_append]
  omega

/-- The value of a literal. -/
def Token.value : Token → List Char
  | .literal value => value
  | _ => []

/-- The value of the literal that the scanner is in. -/
def Mode.value : Mode → List Char
  | .literal value => value
  | .quote value => value
  | _ => []

/-- A character outside of everything adds to no literal. -/
theorem value_begin (c : Char) : (∀ t ∈ (begin c).1, t.value = []) ∧ (begin c).2.value = [] := by
  unfold begin
  split
  · simp [Mode.value]
  · split
    · simp [Mode.value]
    · split
      · simp [Mode.value]
      · split <;> simp [Mode.value, Token.value]

theorem mem_of_emit {token : Token} {c x : Char}
    (h : (∃ t ∈ (emit token c).1, x ∈ t.value) ∨ x ∈ (emit token c).2.value) :
    x ∈ token.value := by
  obtain ⟨htokens, hmode⟩ := value_begin c
  rcases h with ⟨t, ht, hx⟩ | hx
  · rcases List.mem_cons.mp ht with rfl | ht
    · exact hx
    · rw [htokens t ht] at hx
      exact absurd hx List.not_mem_nil
  · have hvalue : (emit token c).2.value = [] := hmode
    rw [hvalue] at hx
    exact absurd hx List.not_mem_nil

/-- The values after one character are made of the value before and the character. -/
theorem mem_of_step {mode : Mode} {c x : Char}
    (h : (∃ t ∈ (step mode c).1, x ∈ t.value) ∨ x ∈ (step mode c).2.value) :
    x ∈ mode.value ∨ x = c := by
  -- without a new token all characters are in the mode after
  have hnone : ∀ m : Mode, (∃ t ∈ ([] : List Token), x ∈ t.value) ∨ x ∈ m.value → x ∈ m.value := by
    rintro m (⟨t, ht, -⟩ | hx)
    · exact absurd ht List.not_mem_nil
    · exact hx
  cases mode with
  | plain =>
    obtain ⟨htokens, hmode⟩ := value_begin c
    rcases h with ⟨t, ht, hx⟩ | hx
    · rw [htokens t ht] at hx
      exact absurd hx List.not_mem_nil
    · have hvalue : (step .plain c).2.value = [] := hmode
      rw [hvalue] at hx
      exact absurd hx List.not_mem_nil
  | word text =>
    simp only [step] at h
    split at h
    · exact Or.inl (hnone _ h)
    · exact Or.inl (mem_of_emit h)
  | literal value =>
    simp only [step] at h
    split at h
    · exact Or.inl (hnone _ h)
    · rcases List.mem_append.mp (hnone _ h) with hx | hx
      · exact Or.inl hx
      · exact Or.inr (List.mem_singleton.mp hx)
  | quote value =>
    simp only [step] at h
    split at h
    · next hc =>
      -- a doubled quote stands for one
      rcases List.mem_append.mp (hnone _ h) with hx | hx
      · exact Or.inl hx
      · exact Or.inr ((List.mem_singleton.mp hx).trans hc.symm)
    · exact Or.inl (mem_of_emit h)
  | dash =>
    simp only [step] at h
    split at h
    · exact Or.inl (hnone _ h)
    · exact Or.inl (mem_of_emit h)
  | comment =>
    simp only [step] at h
    split at h
    · exact Or.inl (hnone _ h)
    · exact Or.inl (hnone _ h)

theorem mem_of_scan {mode : Mode} {cs : List Char} {x : Char}
    (h : (∃ t ∈ (scan mode cs).1, x ∈ t.value) ∨ x ∈ (scan mode cs).2.value) :
    x ∈ mode.value ∨ x ∈ cs := by
  induction cs generalizing mode with
  | nil => simpa [scan] using h
  | cons c cs ih =>
    have hstep : (∃ t ∈ (step mode c).1, x ∈ t.value) ∨ x ∈ (step mode c).2.value ∨ x ∈ cs := by
      simp only [scan, List.mem_append] at h
      rcases h with ⟨t, ht | ht, hx⟩ | hx
      · exact Or.inl ⟨t, ht, hx⟩
      · exact Or.inr (ih (Or.inl ⟨t, ht, hx⟩))
      · exact Or.inr (ih (Or.inr hx))
    rcases hstep with hx | hx | hx
    · rcases mem_of_step (Or.inl hx) with hx | rfl
      · exact Or.inl hx
      · exact Or.inr List.mem_cons_self
    · rcases mem_of_step (Or.inr hx) with hx | rfl
      · exact Or.inl hx
      · exact Or.inr List.mem_cons_self
    · exact Or.inr (List.mem_cons_of_mem c hx)

/-- The characters of a literal come from the text. -/
theorem mem_of_lex {text : List Char} {tokens : List Token} (h : lex text = some tokens)
    {value : List Char} (hvalue : .literal value ∈ tokens) {x : Char} (hx : x ∈ value) :
    x ∈ text := by
  obtain ⟨ending, hending, rfl⟩ := Option.map_eq_some_iff.mp h
  have hscan : (∃ t ∈ (scan .plain text).1, x ∈ t.value) ∨ x ∈ (scan .plain text).2.value := by
    rcases List.mem_append.mp hvalue with hmem | hmem
    · exact Or.inl ⟨_, hmem, hx⟩
    · right
      cases hmode : (scan .plain text).2 <;> rw [hmode] at hending <;>
        simp only [finish, Option.some.injEq, reduceCtorEq] at hending <;> subst hending <;>
        simp only [List.mem_singleton, List.not_mem_nil, reduceCtorEq] at hmem
      obtain rfl := Token.literal.inj hmem
      exact hx
  rcases mem_of_scan hscan with hx | hx
  · exact absurd hx List.not_mem_nil
  · exact hx

/-! ## Values between quotes -/

/-- A value, and the fixed text after it: the quote that is to end the literal, some tokens, and
for all values but the last the quote that opens the next. -/
structure Slot (next : Mode) where
  value : List Char
  text : List Char
  tokens : List Token
  scan_text : ∀ before, scan (.literal before) text = (.literal before :: tokens, next)
  count_text : text.count '\'' = 1 + weight tokens + next.weight

/-- Fixed text with values between quotes. -/
structure Template where
  head : List Char
  headTokens : List Token
  scan_head : scan .plain head = (headTokens, .literal [])
  count_head : head.count '\'' = 1 + weight headTokens
  slots : List (Slot (.literal []))
  last : Slot .plain

namespace Slot

variable {next : Mode} (slot : Slot next)

/-- The tokens that are meant: the value as a literal, and those of the fixed text. -/
def meant : List Token := .literal slot.value :: slot.tokens

theorem scan_slot (h : '\'' ∉ slot.value) :
    scan (.literal []) (slot.value ++ slot.text) = (slot.meant, next) := by
  rw [scan_append, scan_literal h, List.nil_append, slot.scan_text]
  rfl

theorem count_slot :
    (slot.value ++ slot.text).count '\'' + 1 + slot.value.count '\'' =
      weight slot.meant + next.weight := by
  have htext := slot.count_text
  simp only [List.count_append, meant, weight_cons, Token.weight]
  omega

end Slot

namespace Template

variable (template : Template)

/-- The text that is written. -/
def text : List Char :=
  template.head ++ (template.slots.flatMap fun slot => slot.value ++ slot.text) ++
    (template.last.value ++ template.last.text)

/-- The tokens that are meant. -/
def meant : List Token :=
  template.headTokens ++ template.slots.flatMap Slot.meant ++ template.last.meant

/-- The values between the quotes. -/
def values : List (List Char) := template.slots.map Slot.value ++ [template.last.value]

theorem scan_slots {slots : List (Slot (.literal []))} (h : ∀ slot ∈ slots, '\'' ∉ slot.value) :
    scan (.literal []) (slots.flatMap fun slot => slot.value ++ slot.text) =
      (slots.flatMap Slot.meant, .literal []) := by
  induction slots with
  | nil => rfl
  | cons slot slots ih =>
    have hslot := slot.scan_slot (h slot List.mem_cons_self)
    have hslots := ih fun slot hslot => h slot (List.mem_cons_of_mem _ hslot)
    rw [List.flatMap_cons, List.flatMap_cons, scan_append, hslot, hslots]

theorem count_slots (slots : List (Slot (.literal []))) :
    (slots.flatMap fun slot => slot.value ++ slot.text).count '\'' +
        (slots.flatMap Slot.value).count '\'' =
      weight (slots.flatMap Slot.meant) := by
  induction slots with
  | nil => rfl
  | cons slot slots ih =>
    have hslot := slot.count_slot
    simp only [Mode.weight_literal, List.count_nil] at hslot
    simp only [List.flatMap_cons, List.count_append, weight_append] at hslot ih ⊢
    omega

/-- The text has a quote too few for what is meant, for each quote in a value. -/
theorem count_text :
    template.text.count '\'' + template.values.flatten.count '\'' = weight template.meant := by
  have hhead := template.count_head
  have hslots := count_slots template.slots
  have hlast := template.last.count_slot
  simp only [Mode.weight_plain] at hlast
  simp only [text, meant, values, List.count_append, weight_append, List.flatten_append,
    List.flatten_singleton, ← List.flatMap_def] at hslots hlast ⊢
  omega

/-- The text lexes to what is meant exactly when no value has a quote. -/
theorem lex_text_iff : lex template.text = some template.meant ↔
    ∀ value ∈ template.values, '\'' ∉ value := by
  constructor
  · intro h value hvalue hquote
    -- the meant tokens need more quotes than the text has
    have hweight := weight_le_of_lex h
    have hcount := template.count_text
    have hpos : 0 < template.values.flatten.count '\'' :=
      List.count_pos_iff.mpr (List.mem_flatten_of_mem hvalue hquote)
    omega
  · intro h
    -- without quotes in the values every literal ends where its slot does
    have hslots : ∀ slot ∈ template.slots, '\'' ∉ slot.value := by
      intro slot hslot
      exact h _ (List.mem_append_left _ (List.mem_map.mpr ⟨slot, hslot, rfl⟩))
    have hlast : '\'' ∉ template.last.value := h _ (List.mem_append_right _ List.mem_cons_self)
    have hscan : scan .plain template.text = (template.meant, .plain) := by
      rw [text, scan_append, scan_append, template.scan_head, scan_slots hslots,
        template.last.scan_slot hlast]
      rfl
    simp [lex, hscan, finish]

/-- The fixed text. -/
def fixed : List Char :=
  template.head ++ template.slots.flatMap Slot.text ++ template.last.text

variable {template}

theorem mem_text {x : Char} (h : x ∈ template.text) (hfixed : x ∉ template.fixed) :
    ∃ value ∈ template.values, x ∈ value := by
  simp only [fixed, List.mem_append, List.mem_flatMap, not_or, not_exists, not_and] at hfixed
  simp only [text, List.mem_append, List.mem_flatMap] at h
  rcases h with (h | ⟨slot, hslot, h | h⟩) | h | h
  · exact absurd h hfixed.1.1
  · exact ⟨_, List.mem_append_left _ (List.mem_map.mpr ⟨slot, hslot, rfl⟩), h⟩
  · exact absurd h (hfixed.1.2 slot hslot)
  · exact ⟨_, List.mem_append_right _ List.mem_cons_self, h⟩
  · exact absurd h hfixed.2

theorem literal_mem_meant {value : List Char} (h : value ∈ template.values) :
    .literal value ∈ template.meant := by
  rcases List.mem_append.mp h with h | h
  · obtain ⟨slot, hslot, rfl⟩ := List.mem_map.mp h
    refine List.mem_append_left _ (List.mem_append_right _ ?_)
    exact List.mem_flatMap.mpr ⟨slot, hslot, List.mem_cons_self⟩
  · obtain rfl := List.mem_singleton.mp h
    exact List.mem_append_right _ List.mem_cons_self

/-- When the reader of the text stops at a character `x` that the fixed text does not have, the
values must not have it either. -/
theorem lex_takeWhile_iff {x : Char} (hfixed : x ∉ template.fixed) :
    lex (template.text.takeWhile (· ≠ x)) = some template.meant ↔
      ∀ value ∈ template.values, '\'' ∉ value ∧ x ∉ value := by
  have hwhole : (∀ value ∈ template.values, x ∉ value) →
      template.text.takeWhile (· ≠ x) = template.text := by
    intro hvalues
    rw [List.takeWhile_eq_self_iff]
    intro c hc
    rw [decide_eq_true_eq]
    rintro rfl
    obtain ⟨value, hvalue, hmem⟩ := mem_text hc hfixed
    exact hvalues value hvalue hmem
  constructor
  · intro h
    have hvalues : ∀ value ∈ template.values, x ∉ value := by
      intro value hvalue hx
      -- what is after `x` is not read, and so no literal has it
      have hread := mem_of_lex h (literal_mem_meant hvalue) hx
      have hne := List.mem_takeWhile_imp hread
      simp at hne
    rw [hwhole hvalues, lex_text_iff] at h
    exact fun value hvalue => ⟨h value hvalue, hvalues value hvalue⟩
  · intro h
    rw [hwhole fun value hvalue => (h value hvalue).2, lex_text_iff]
    exact fun value hvalue => (h value hvalue).1

end Template

end Lib.Sql
