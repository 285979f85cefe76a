import Mathlib.Data.List.Basic
import Mathlib.Data.List.Chain
import Mathlib.Tactic

/-!
# Tokens of JSON texts

A text is a list of UTF-16 code units.  It falls into punctuation, blanks, strings
and atoms, which are numbers and literals; the tokens of a text spell it, and a text
that tokens spell has these tokens as long as no two atoms touch.
-/

namespace JsonSyntax

/-- Code units. -/
abbrev Text := List ℕ

def units (s : String) : Text :=
  s.toList.map Char.toNat

def quote : ℕ := 34
def backslash : ℕ := 92

/-! ## Strings -/

inductive Escape
  | quote | backslash | slash | backspace | formFeed | lineFeed | carriageReturn | tab
  deriving DecidableEq

def Escape.letter : Escape → ℕ
  | quote => 34
  | backslash => 92
  | slash => 47
  | backspace => 98
  | formFeed => 102
  | lineFeed => 110
  | carriageReturn => 114
  | tab => 116

def Escape.unit : Escape → ℕ
  | quote => 34
  | backslash => 92
  | slash => 47
  | backspace => 8
  | formFeed => 12
  | lineFeed => 10
  | carriageReturn => 13
  | tab => 9

def Escape.ofLetter (c : ℕ) : Option Escape :=
  [quote, backslash, slash, backspace, formFeed, lineFeed, carriageReturn, tab].find? fun e =>
    e.letter = c

theorem Escape.ofLetter_letter (e : Escape) : Escape.ofLetter e.letter = some e := by
  cases e <;> rfl

theorem Escape.letter_of_ofLetter
    {c : ℕ} {e : Escape}
    (h : Escape.ofLetter c = some e) :
    e.letter = c := by
  simpa using List.find?_some h

def isPlainUnit (c : ℕ) : Bool :=
  32 ≤ c && c ≠ 34 && c ≠ 92

def isHexUnit (c : ℕ) : Bool :=
  (48 ≤ c && c ≤ 57) || (65 ≤ c && c ≤ 70) || (97 ≤ c && c ≤ 102)

def hexUnitValue (c : ℕ) : ℕ :=
  if c ≤ 57 then c - 48 else if c ≤ 70 then c - 55 else c - 87

abbrev PlainUnit := { c : ℕ // isPlainUnit c = true }

abbrev HexUnit := { c : ℕ // isHexUnit c = true }

/-- What stands for one code unit in a string. -/
inductive StringItem
  | plain (c : PlainUnit)
  | escape (e : Escape)
  | unicode (a b c d : HexUnit)
  deriving DecidableEq

def StringItem.text : StringItem → Text
  | plain c => [c.1]
  | escape e => [92, e.letter]
  | unicode a b c d => [92, 117, a.1, b.1, c.1, d.1]

def StringItem.unit : StringItem → ℕ
  | plain c => c.1
  | escape e => e.unit
  | unicode a b c d =>
      hexUnitValue a.1 * 4096 + hexUnitValue b.1 * 256 + hexUnitValue c.1 * 16 +
        hexUnitValue d.1

def itemsText (items : List StringItem) : Text :=
  items.flatMap StringItem.text

/-- The code units that a string stands for. -/
def decoded (items : List StringItem) : Text :=
  items.map StringItem.unit

def readHex : Text → Option (StringItem × Text)
  | a :: b :: c :: d :: s =>
      if h : isHexUnit a = true ∧ isHexUnit b = true ∧ isHexUnit c = true ∧
          isHexUnit d = true then
        some (.unicode ⟨a, h.1⟩ ⟨b, h.2.1⟩ ⟨c, h.2.2.1⟩ ⟨d, h.2.2.2⟩, s)
      else none
  | _ => none

def readEscape : Text → Option (StringItem × Text)
  | [] => none
  | e :: s =>
      match Escape.ofLetter e with
      | some e => some (.escape e, s)
      | none => if e = 117 then readHex s else none

def readItem : Text → Option (StringItem × Text)
  | [] => none
  | c :: s =>
      if c = backslash then readEscape s
      else if h : isPlainUnit c = true then some (.plain ⟨c, h⟩, s)
      else none

/-- The items of a string after its opening quote, and what follows the closing one. -/
def readItems : ℕ → Text → Option (List StringItem × Text)
  | 0, _ => none
  | n + 1, s =>
      if s.head? = some quote then some ([], s.tail)
      else (readItem s).bind fun r =>
        (readItems n r.2).map fun r' => (r.1 :: r'.1, r'.2)

theorem plain_ne
    {c : ℕ}
    (hc : isPlainUnit c = true) :
    c ≠ quote ∧ c ≠ backslash := by
  simp only [isPlainUnit, Bool.and_eq_true, decide_eq_true_eq] at hc
  exact ⟨hc.1.2, hc.2⟩

theorem readItem_text (item : StringItem) (rest : Text) :
    readItem (item.text ++ rest) = some (item, rest) := by
  cases item with
  | plain c =>
      rw [StringItem.text, List.singleton_append, readItem, if_neg (plain_ne c.2).2,
        dif_pos c.2]
  | escape e =>
      change readEscape (e.letter :: rest) = _
      rw [readEscape, Escape.ofLetter_letter]
  | unicode a b c d =>
      change readHex (a.1 :: b.1 :: c.1 :: d.1 :: rest) = _
      rw [readHex, dif_pos ⟨a.2, b.2, c.2, d.2⟩]

theorem readHex_spec
    {s : Text} {item : StringItem} {rest : Text}
    (h : readHex s = some (item, rest)) :
    92 :: 117 :: s = item.text ++ rest := by
  unfold readHex at h
  split at h
  · split at h
    · cases h
      rfl
    · cases h
  · cases h

theorem readEscape_spec
    {s : Text} {item : StringItem} {rest : Text}
    (h : readEscape s = some (item, rest)) :
    92 :: s = item.text ++ rest := by
  cases s with
  | nil => cases h
  | cons e s =>
      rw [readEscape] at h
      cases hletter : Escape.ofLetter e with
      | some e' =>
          rw [hletter] at h
          cases h
          rw [← Escape.letter_of_ofLetter hletter]
          rfl
      | none =>
          rw [hletter] at h
          dsimp only at h
          by_cases he : e = 117
          · rw [if_pos he] at h
            rw [he]
            exact readHex_spec h
          · rw [if_neg he] at h
            cases h

theorem readItem_spec
    {s : Text} {item : StringItem} {rest : Text}
    (h : readItem s = some (item, rest)) :
    s = item.text ++ rest := by
  cases s with
  | nil => cases h
  | cons c s =>
      rw [readItem] at h
      by_cases hc : c = backslash
      · rw [if_pos hc] at h
        rw [hc]
        exact readEscape_spec h
      · rw [if_neg hc] at h
        by_cases hplain : isPlainUnit c = true
        · rw [dif_pos hplain] at h
          cases h
          rfl
        · rw [dif_neg hplain] at h
          cases h

theorem itemsText_cons (item : StringItem) (items : List StringItem) :
    itemsText (item :: items) = item.text ++ itemsText items := by
  simp [itemsText]

theorem head_text_ne_quote (item : StringItem) (rest : Text) :
    (item.text ++ rest).head? ≠ some quote := by
  cases item with
  | plain c =>
      intro h
      exact (plain_ne c.2).1 (Option.some.inj h)
  | escape e =>
      intro h
      cases Option.some.inj h
  | unicode a b c d =>
      intro h
      cases Option.some.inj h

theorem length_le_itemsText (items : List StringItem) :
    items.length ≤ (itemsText items).length := by
  induction items with
  | nil => exact le_rfl
  | cons item items ih =>
      have hitem : 1 ≤ item.text.length := by
        cases item <;> simp [StringItem.text]
      rw [itemsText_cons, List.length_append, List.length_cons]
      omega

theorem readItems_itemsText
    {n : ℕ} {items : List StringItem}
    (hn : items.length < n) (rest : Text) :
    readItems n (itemsText items ++ quote :: rest) = some (items, rest) := by
  induction items generalizing n with
  | nil =>
      cases n with
      | zero => cases hn
      | succ n =>
          have hempty : itemsText [] ++ quote :: rest = quote :: rest := rfl
          have hhead : (quote :: rest).head? = some quote := rfl
          rw [hempty, readItems, if_pos hhead]
          rfl
  | cons item items ih =>
      cases n with
      | zero => cases hn
      | succ n =>
          rw [List.length_cons] at hn
          rw [itemsText_cons, List.append_assoc, readItems,
            if_neg (head_text_ne_quote item _), readItem_text, Option.bind_some,
            ih (by omega)]
          rfl

theorem readItems_spec
    {n : ℕ} {s : Text} {items : List StringItem} {rest : Text}
    (h : readItems n s = some (items, rest)) :
    s = itemsText items ++ quote :: rest := by
  induction n generalizing s items with
  | zero => cases h
  | succ n ih =>
      rw [readItems] at h
      by_cases hquote : s.head? = some quote
      · rw [if_pos hquote] at h
        cases h
        exact List.eq_cons_of_mem_head? hquote
      · rw [if_neg hquote] at h
        rcases Option.bind_eq_some_iff.mp h with ⟨⟨item, s'⟩, hitem, h⟩
        rcases Option.map_eq_some_iff.mp h with ⟨⟨items', rest'⟩, hitems, heq⟩
        cases heq
        rw [itemsText_cons, List.append_assoc, ← ih hitems]
        exact readItem_spec hitem

/-! ## Atoms -/

def isDigitUnit (c : ℕ) : Bool :=
  48 ≤ c && c ≤ 57

/-- The code units of numbers and of `true`, `false` and `null`. -/
def isAtomUnit (c : ℕ) : Bool :=
  isDigitUnit c || c ∈ units "+-.Eaeflnrstu"

/-- Digits, at least one. -/
def isDigits (s : Text) : Bool :=
  s ≠ [] && s.all isDigitUnit

def isExponent : Text → Bool
  | [] => true
  | c :: s => (c = 69 || c = 101) && (isDigits s || ((s.head? = some 43 || s.head? = some 45) &&
      isDigits s.tail))

def isFraction : Text → Bool
  | [] => true
  | c :: s =>
      if c = 46 then
        s.takeWhile isDigitUnit ≠ [] && isExponent (s.dropWhile isDigitUnit)
      else isExponent (c :: s)

/-- A number without its sign; it has no superfluous zeros in front. -/
def isMagnitude (s : Text) : Bool :=
  let whole := s.takeWhile isDigitUnit
  whole ≠ [] && (whole.length = 1 || whole.head? ≠ some 48) &&
    isFraction (s.dropWhile isDigitUnit)

def isAtomText (s : Text) : Bool :=
  s = units "true" || s = units "false" || s = units "null" ||
    isMagnitude s || (s.head? = some 45 && isMagnitude s.tail)

/-- A number or a literal. -/
structure Atom where
  text : Text
  units : text.all isAtomUnit = true
  valid : isAtomText text = true
  deriving DecidableEq

theorem Atom.text_ne_nil (a : Atom) : a.text ≠ [] := by
  intro h
  have hvalid := a.valid
  rw [h] at hvalid
  cases hvalid

/-! ## Tokens -/

inductive Punct
  | leftBrace | rightBrace | leftBracket | rightBracket | colon | comma
  deriving DecidableEq

def Punct.code : Punct → ℕ
  | leftBrace => 123
  | rightBrace => 125
  | leftBracket => 91
  | rightBracket => 93
  | colon => 58
  | comma => 44

def Punct.ofCode (c : ℕ) : Option Punct :=
  [leftBrace, rightBrace, leftBracket, rightBracket, colon, comma].find? fun p => p.code = c

theorem Punct.ofCode_code (p : Punct) : Punct.ofCode p.code = some p := by
  cases p <;> rfl

theorem Punct.code_of_ofCode
    {c : ℕ} {p : Punct}
    (h : Punct.ofCode c = some p) :
    p.code = c := by
  simpa using List.find?_some h

def isBlankUnit (c : ℕ) : Bool :=
  c = 9 || c = 10 || c = 13 || c = 32

inductive Token
  | punct (p : Punct)
  | blank (c : { c : ℕ // isBlankUnit c = true })
  | str (items : List StringItem)
  | atom (a : Atom)
  deriving DecidableEq

/-- A string with its quotes. -/
def quoted (items : List StringItem) : Text :=
  quote :: (itemsText items ++ [quote])

def Token.text : Token → Text
  | punct p => [p.code]
  | blank c => [c.1]
  | str items => quoted items
  | atom a => a.text

def Token.isAtom : Token → Bool
  | atom _ => true
  | _ => false

def tokensText (ts : List Token) : Text :=
  ts.flatMap Token.text

/-- No two atoms touch. -/
def Separated (ts : List Token) : Prop :=
  ts.IsChain fun t t' => ¬(t.isAtom = true ∧ t'.isAtom = true)

/-- The first token and what follows; an atom is as long as it can be. -/
def readToken : Text → Option (Token × Text)
  | [] => none
  | c :: s =>
      if c = quote then (readItems (s.length + 1) s).map fun r => (.str r.1, r.2)
      else
        match Punct.ofCode c with
        | some p => some (.punct p, s)
        | none =>
            if h : isBlankUnit c = true then some (.blank ⟨c, h⟩, s)
            else if h : ((c :: s).takeWhile isAtomUnit).all isAtomUnit = true ∧
                isAtomText ((c :: s).takeWhile isAtomUnit) = true then
              some (.atom ⟨(c :: s).takeWhile isAtomUnit, h.1, h.2⟩,
                (c :: s).dropWhile isAtomUnit)
            else none

def readTokens : ℕ → Text → Option (List Token)
  | _, [] => some []
  | 0, _ :: _ => none
  | n + 1, c :: s =>
      (readToken (c :: s)).bind fun r => (readTokens n r.2).map fun ts => r.1 :: ts

def tokenize (s : Text) : Option (List Token) :=
  readTokens s.length s

/-! ## Tokens and their texts -/

set_option maxRecDepth 4000 in
/-- No atom starts like another token. -/
theorem atomUnit_spec
    {c : ℕ}
    (hc : isAtomUnit c = true) :
    c ≠ quote ∧ Punct.ofCode c = none ∧ isBlankUnit c = false := by
  have hsmall : c < 128 := by
    simp only [isAtomUnit, isDigitUnit, Bool.or_eq_true, Bool.and_eq_true,
      decide_eq_true_eq] at hc
    rcases hc with hdigit | hmem
    · omega
    · have hall : ∀ d ∈ units "+-.Eaeflnrstu", d < 128 := by decide +kernel
      exact hall c hmem
  have hall : ∀ d < 128, isAtomUnit d = true →
      d ≠ quote ∧ Punct.ofCode d = none ∧ isBlankUnit d = false := by
    decide +kernel
  exact hall c hsmall hc

theorem Atom.head_isAtomUnit (a : Atom) : ∃ c s, a.text = c :: s ∧ isAtomUnit c = true := by
  cases hcons : a.text with
  | nil => exact absurd hcons a.text_ne_nil
  | cons c s =>
      have hunits := a.units
      rw [hcons, List.all_cons, Bool.and_eq_true] at hunits
      exact ⟨c, s, rfl, hunits.1⟩

/-- What may follow a token. -/
def Ends (t : Token) (rest : Text) : Prop :=
  t.isAtom = true → ∀ c ∈ rest.head?, isAtomUnit c = false

theorem takeWhile_atom
    {s rest : Text}
    (hs : s.all isAtomUnit = true) (hrest : ∀ c ∈ rest.head?, isAtomUnit c = false) :
    (s ++ rest).takeWhile isAtomUnit = s ∧ (s ++ rest).dropWhile isAtomUnit = rest := by
  rw [List.all_eq_true] at hs
  have htake : rest.takeWhile isAtomUnit = [] := by
    cases rest with
    | nil => rfl
    | cons c rest => rw [List.takeWhile_cons, hrest c rfl, if_neg Bool.false_ne_true]
  have hdrop : rest.dropWhile isAtomUnit = rest := by
    cases rest with
    | nil => rfl
    | cons c rest => rw [List.dropWhile_cons, hrest c rfl, if_neg Bool.false_ne_true]
  rw [List.takeWhile_append_of_pos hs, List.dropWhile_append_of_pos hs, htake, hdrop,
    List.append_nil]
  exact ⟨rfl, rfl⟩

theorem readToken_text
    {t : Token} {rest : Text}
    (hrest : Ends t rest) :
    readToken (t.text ++ rest) = some (t, rest) := by
  cases t with
  | punct p =>
      have hquote : p.code ≠ quote := by cases p <;> decide
      rw [Token.text, List.singleton_append, readToken, if_neg hquote, Punct.ofCode_code]
  | blank c =>
      have hc := c.2
      have hother : c.1 ≠ quote ∧ Punct.ofCode c.1 = none := by
        simp only [isBlankUnit, Bool.or_eq_true, decide_eq_true_eq] at hc
        rcases hc with ((h | h) | h) | h <;>
        · rw [h]
          exact ⟨by decide, rfl⟩
      rw [Token.text, List.singleton_append, readToken, if_neg hother.1, hother.2]
      dsimp only
      rw [dif_pos hc]
  | str items =>
      have htext : (Token.str items).text ++ rest =
          quote :: (itemsText items ++ quote :: rest) := by
        simp [Token.text, quoted]
      have hlength := length_le_itemsText items
      rw [htext, readToken, if_pos rfl, readItems_itemsText]
      · rfl
      · rw [List.length_append]
        omega
  | atom a =>
      rcases a.head_isAtomUnit with ⟨c, s, hcons, hc⟩
      have hspec := atomUnit_spec hc
      have htake := takeWhile_atom a.units (hrest rfl)
      have hvalid := a.valid
      have hunits := a.units
      have htext : (Token.atom a).text ++ rest = c :: (s ++ rest) := by
        rw [Token.text, hcons, List.cons_append]
      rw [hcons, List.cons_append] at htake
      rw [hcons] at hvalid hunits
      rw [htext, readToken, if_neg hspec.1, hspec.2.1]
      dsimp only
      rw [dif_neg (by rw [hspec.2.2]; exact Bool.false_ne_true), dif_pos]
      · simp only [htake.1, htake.2, ← hcons]
      · rw [htake.1]
        exact ⟨hunits, hvalid⟩

theorem readToken_spec
    {s : Text} {t : Token} {rest : Text}
    (h : readToken s = some (t, rest)) :
    s = t.text ++ rest ∧ Ends t rest := by
  cases s with
  | nil => cases h
  | cons c s =>
      rw [readToken] at h
      by_cases hquote : c = quote
      · rw [if_pos hquote] at h
        rcases Option.map_eq_some_iff.mp h with ⟨⟨items, rest'⟩, hitems, heq⟩
        cases heq
        rw [hquote, readItems_spec hitems]
        constructor
        · simp [Token.text, quoted]
        · intro hatom
          cases hatom
      · rw [if_neg hquote] at h
        cases hcode : Punct.ofCode c with
        | some p =>
            rw [hcode] at h
            cases h
            rw [← Punct.code_of_ofCode hcode]
            exact ⟨rfl, fun hatom => by cases hatom⟩
        | none =>
            rw [hcode] at h
            dsimp only at h
            by_cases hblank : isBlankUnit c = true
            · rw [dif_pos hblank] at h
              cases h
              exact ⟨rfl, fun hatom => by cases hatom⟩
            · rw [dif_neg hblank] at h
              split at h
              · cases h
                constructor
                · exact List.takeWhile_append_dropWhile.symm
                · intro _ d hd
                  have hhead := List.head?_dropWhile_not isAtomUnit (c :: s)
                  rw [Option.mem_def] at hd
                  rw [hd] at hhead
                  simpa using hhead
              · cases h

theorem tokensText_cons (t : Token) (ts : List Token) :
    tokensText (t :: ts) = t.text ++ tokensText ts := by
  simp [tokensText]

theorem Token.text_ne_nil (t : Token) : t.text ≠ [] := by
  cases t with
  | punct p => exact List.cons_ne_nil _ _
  | blank c => exact List.cons_ne_nil _ _
  | str items => exact List.cons_ne_nil _ _
  | atom a => exact a.text_ne_nil

/-- Tokens other than atoms start otherwise. -/
theorem head_not_isAtomUnit
    {t : Token}
    (ht : t.isAtom = false) (rest : Text) :
    ∀ c ∈ (t.text ++ rest).head?, isAtomUnit c = false := by
  intro c hc
  rw [Bool.eq_false_iff]
  intro hatom
  have hspec := atomUnit_spec hatom
  cases t with
  | punct p =>
      cases hc
      rw [Punct.ofCode_code] at hspec
      cases hspec.2.1
  | blank d =>
      cases hc
      rw [d.2] at hspec
      cases hspec.2.2
  | str items =>
      cases hc
      exact hspec.1 rfl
  | atom a => cases ht

theorem readTokens_spec
    {n : ℕ} {s : Text} {ts : List Token}
    (h : readTokens n s = some ts) :
    tokensText ts = s ∧ Separated ts := by
  induction n generalizing s ts with
  | zero =>
      cases s with
      | nil =>
          cases h
          exact ⟨rfl, .nil⟩
      | cons c s => cases h
  | succ n ih =>
      cases s with
      | nil =>
          cases h
          exact ⟨rfl, .nil⟩
      | cons c s =>
          rw [readTokens] at h
          rcases Option.bind_eq_some_iff.mp h with ⟨⟨t, rest⟩, ht, h⟩
          rcases Option.map_eq_some_iff.mp h with ⟨ts', hts, heq⟩
          subst heq
          dsimp only at hts
          have htoken := readToken_spec ht
          have hrest := ih hts
          constructor
          · rw [tokensText_cons, hrest.1, htoken.1]
          · cases ts' with
            | nil => exact .singleton _
            | cons t' ts' =>
                refine List.IsChain.cons_cons ?_ hrest.2
                intro hatoms
                have hends := htoken.2 hatoms.1
                rw [← hrest.1, tokensText_cons] at hends
                cases t' with
                | atom a =>
                    rcases a.head_isAtomUnit with ⟨d, s', hcons, hd⟩
                    have hfalse := hends d (by rw [Token.text, hcons]; rfl)
                    rw [hd] at hfalse
                    cases hfalse
                | punct p => cases hatoms.2
                | blank c => cases hatoms.2
                | str items => cases hatoms.2

theorem readTokens_tokensText
    {n : ℕ} {ts : List Token}
    (hts : Separated ts) (hn : ts.length ≤ n) :
    readTokens n (tokensText ts) = some ts := by
  induction ts generalizing n with
  | nil => cases n <;> rfl
  | cons t ts ih =>
      cases n with
      | zero => cases hn
      | succ n =>
          have hends : Ends t (tokensText ts) := by
            intro hatom c hc
            cases ts with
            | nil => cases hc
            | cons t' ts =>
                have hchain := (List.isChain_cons_cons.mp hts).1
                have hother : t'.isAtom = false := by
                  rw [Bool.eq_false_iff]
                  exact fun h => hchain ⟨hatom, h⟩
                rw [tokensText_cons] at hc
                exact head_not_isAtomUnit hother _ c hc
          have hread := readToken_text hends
          rw [tokensText_cons]
          cases hcons : t.text ++ tokensText ts with
          | nil => exact absurd (List.append_eq_nil_iff.mp hcons).1 t.text_ne_nil
          | cons c s =>
              rw [hcons] at hread
              rw [readTokens, hread, Option.bind_some,
                ih hts.tail (by rw [List.length_cons] at hn; omega)]
              rfl

theorem length_le_tokensText (ts : List Token) : ts.length ≤ (tokensText ts).length := by
  induction ts with
  | nil => exact le_rfl
  | cons t ts ih =>
      have ht := List.length_pos_iff.mpr t.text_ne_nil
      rw [tokensText_cons, List.length_append, List.length_cons]
      omega

/-- Exactly the texts that separated tokens spell have tokens. -/
theorem tokenize_eq_some
    {s : Text} {ts : List Token} :
    tokenize s = some ts ↔ tokensText ts = s ∧ Separated ts := by
  constructor
  · exact readTokens_spec
  · intro h
    rw [tokenize, ← h.1]
    exact readTokens_tokensText h.2 (length_le_tokensText ts)

end JsonSyntax
