import Untangled.JsonTrees

/-!
# The CSRF field in a text

The pattern of `refresh_fetch.ts` looks for a JSON member `csrf_token` with a string
value in the raw text of a body.  On the text of JSON tokens it finds the first string
that ends like the name and that a colon and a string follow, at whatever depth.
-/

namespace Untangled.Csrf

open JsonSyntax

/-! ## The pattern -/

def csrfToken : Text := units "csrf_token"

/-- `\s` -/
def isJsSpace (c : ℕ) : Bool :=
  (9 ≤ c && c ≤ 13) || c = 32 || c = 160 || c = 0x1680 || (0x2000 ≤ c && c ≤ 0x200A) ||
    c = 0x2028 || c = 0x2029 || c = 0x202F || c = 0x205F || c = 0x3000 || c = 0xFEFF

def isLineTerminator (c : ℕ) : Bool :=
  c = 10 || c = 13 || c = 0x2028 || c = 0x2029

/-- `(?:\\.|[^"\\])*"`: what follows it; the flag says that a backslash came last. -/
def matchContent : Bool → Text → Option Text
  | _, [] => none
  | true, c :: s => if isLineTerminator c then none else matchContent false s
  | false, c :: s => if c = quote then some s else matchContent (c = backslash) s

/-- `\s*"(?:\\.|[^"\\])*"`: the blanks and what follows. -/
def matchValue : Text → Option (Text × Text)
  | [] => none
  | c :: s =>
      if isJsSpace c then (matchValue s).map fun r => (c :: r.1, r.2)
      else if c = quote then (matchContent false s).map fun after => ([], after)
      else none

/-- `\s*:\s*"(?:\\.|[^"\\])*"` -/
def matchGap : Text → Option (Text × Text)
  | [] => none
  | c :: s =>
      if isJsSpace c then (matchGap s).map fun r => (c :: r.1, r.2)
      else if c = 58 then (matchValue s).map fun r => (c :: r.1, r.2)
      else none

def fieldName : Text := quote :: (csrfToken ++ [quote])

/-- `JSON_CSRF_TOKEN_FIELD` at the start of a text: its first group and what follows. -/
def matchField (s : Text) : Option (Text × Text) :=
  if fieldName <+: s then
    (matchGap (s.drop fieldName.length)).map fun r => (fieldName ++ r.1, r.2)
  else none

/-- `body.replace(JSON_CSRF_TOKEN_FIELD, ...)` -/
def replaceFirst (replacement : Text) : Text → Text
  | [] => []
  | c :: s =>
      match matchField (c :: s) with
      | some r => r.1 ++ (replacement ++ r.2)
      | none => c :: replaceFirst replacement s

/-! ## The pattern on tokens -/

/-- How far the string of a value is away. -/
def valueOffset : List Token → Option ℕ
  | .blank _ :: ts => (valueOffset ts).map (· + 1)
  | .str _ :: _ => some 0
  | _ => none

/-- How far it is away behind a colon. -/
def gapOffset : List Token → Option ℕ
  | .blank _ :: ts => (gapOffset ts).map (· + 1)
  | .punct .colon :: ts => (valueOffset ts).map (· + 1)
  | _ => none

def plainItem (c : ℕ) : Option StringItem :=
  if h : isPlainUnit c = true then some (.plain ⟨c, h⟩) else none

/-- The string `csrf_token` without escapes. -/
def nameItems : List StringItem := csrfToken.filterMap plainItem

/-- A string that ends in an escaped quote and the name looks like it from there. -/
def looksLikeName (items : List StringItem) : Bool :=
  items = nameItems || (.escape .quote :: nameItems) <:+ items

/-- The place of the string that the pattern replaces. -/
def fieldIndex : List Token → Option ℕ
  | [] => none
  | .str items :: ts =>
      if looksLikeName items then
        match gapOffset ts with
        | some k => some (k + 1)
        | none => (fieldIndex ts).map (· + 1)
      else (fieldIndex ts).map (· + 1)
  | _ :: ts => (fieldIndex ts).map (· + 1)

theorem itemsText_nameItems : itemsText nameItems = csrfToken := by
  decide +kernel

theorem itemsText_inj
    {items items' : List StringItem} {rest rest' : Text}
    (h : itemsText items ++ quote :: rest = itemsText items' ++ quote :: rest') :
    items = items' ∧ rest = rest' := by
  have hread := readItems_itemsText
    (show items.length < items.length + items'.length + 1 by omega) rest
  have hread' := readItems_itemsText
    (show items'.length < items.length + items'.length + 1 by omega) rest'
  rw [h, hread', Option.some.injEq, Prod.mk.injEq] at hread
  exact ⟨hread.1.symm, hread.2.symm⟩

/-- A string is `csrf_token` in the text only if it is written plainly. -/
theorem fieldName_leads_iff
    {items : List StringItem} {rest : Text} :
    fieldName <+: quote :: (itemsText items ++ quote :: rest) ↔ items = nameItems := by
  unfold fieldName
  rw [List.cons_prefix_cons, ← itemsText_nameItems]
  constructor
  · intro h
    rcases h.2 with ⟨rest', heq⟩
    rw [List.append_assoc, List.singleton_append] at heq
    exact (itemsText_inj heq).1.symm
  · intro h
    refine ⟨rfl, rest, ?_⟩
    rw [h, List.append_assoc]
    rfl

theorem matchField_quoted (items : List StringItem) (rest : Text) :
    matchField (quote :: (itemsText items ++ quote :: rest)) =
      if items = nameItems then
        (matchGap rest).map fun r => (quote :: (itemsText items ++ quote :: r.1), r.2)
      else none := by
  unfold matchField
  by_cases hname : items = nameItems
  · rw [if_pos (fieldName_leads_iff.mpr hname), if_pos hname, hname, itemsText_nameItems]
    have hdrop : (quote :: (csrfToken ++ quote :: rest)).drop fieldName.length = rest := by
      have hsplit : quote :: (csrfToken ++ quote :: rest) = fieldName ++ rest := by
        simp [fieldName]
      rw [hsplit, List.drop_left]
    rw [hdrop]
    simp [fieldName]
  · rw [if_neg fun h => hname (fieldName_leads_iff.mp h), if_neg hname]

theorem matchField_of_head
    {c : ℕ} {s : Text}
    (hc : c ≠ quote) :
    matchField (c :: s) = none := by
  unfold matchField
  rw [if_neg]
  intro h
  exact hc (List.cons_prefix_cons.mp h).1.symm

theorem replaceFirst_skip
    {replacement before : Text}
    (hbefore : ∀ c ∈ before, c ≠ quote) (s : Text) :
    replaceFirst replacement (before ++ s) = before ++ replaceFirst replacement s := by
  induction before with
  | nil => rfl
  | cons c before ih =>
      rw [List.cons_append, replaceFirst, matchField_of_head (hbefore c (.head _)),
        ih fun d hd => hbefore d (.tail _ hd)]
      rfl

theorem matchContent_itemsText (items : List StringItem) (rest : Text) :
    matchContent false (itemsText items ++ quote :: rest) = some rest := by
  induction items with
  | nil =>
      change matchContent false (quote :: rest) = _
      rw [matchContent, if_pos rfl]
  | cons item items ih =>
      rw [itemsText_cons, List.append_assoc]
      cases item with
      | plain c =>
          have hc := plain_ne c.2
          rw [StringItem.text, List.singleton_append, matchContent, if_neg hc.1,
            decide_eq_false hc.2, ih]
      | escape e =>
          change matchContent false (backslash :: e.letter :: (itemsText items ++ quote :: rest)) = _
          have hletter : isLineTerminator e.letter = false := by cases e <;> decide
          rw [matchContent, if_neg (by decide), decide_eq_true rfl, matchContent, hletter,
            if_neg Bool.false_ne_true, ih]
      | unicode a b c d =>
          change matchContent false (backslash :: 117 :: a.1 :: b.1 :: c.1 :: d.1 ::
            (itemsText items ++ quote :: rest)) = _
          have hhex : ∀ x : HexUnit, x.1 ≠ quote ∧ x.1 ≠ backslash := by
            intro x
            have hx := x.2
            simp only [isHexUnit, Bool.or_eq_true, Bool.and_eq_true, decide_eq_true_eq] at hx
            unfold quote backslash
            omega
          rw [matchContent, if_neg (by decide), decide_eq_true rfl, matchContent,
            if_neg (by decide), matchContent, if_neg (hhex a).1, decide_eq_false (hhex a).2,
            matchContent, if_neg (hhex b).1, decide_eq_false (hhex b).2,
            matchContent, if_neg (hhex c).1, decide_eq_false (hhex c).2,
            matchContent, if_neg (hhex d).1, decide_eq_false (hhex d).2, ih]

/-! ## Strings under the pattern -/

/-- A text that is kept up to a gap, if there is one, and else altogether. -/
def replaceAfter (replacement before rest : Text) (gap : Option (Text × Text)) : Text :=
  match gap with
  | some g => before ++ (g.1 ++ (replacement ++ g.2))
  | none => before ++ replaceFirst replacement rest

theorem replaceAfter_append
    (replacement before before' rest : Text) (gap : Option (Text × Text)) :
    before ++ replaceAfter replacement before' rest gap =
      replaceAfter replacement (before ++ before') rest gap := by
  cases gap with
  | none => simp [replaceAfter]
  | some g => simp [replaceAfter]

theorem replaceFirst_at_quote
    (replacement : Text) {items : List StringItem} {rest : Text} :
    replaceFirst replacement (quote :: (itemsText items ++ quote :: rest)) =
      match (if items = nameItems then matchGap rest else none) with
      | some g => quote :: (itemsText items ++ quote :: (g.1 ++ (replacement ++ g.2)))
      | none => quote :: replaceFirst replacement (itemsText items ++ quote :: rest) := by
  rw [replaceFirst, matchField_quoted]
  by_cases hname : items = nameItems
  · rw [if_pos hname, if_pos hname]
    cases matchGap rest with
    | none => rfl
    | some g => simp
  · rw [if_neg hname, if_neg hname]

theorem ne_quote_of_item
    {item : StringItem}
    (hitem : item ≠ .escape .quote) :
    ∀ c ∈ item.text, c ≠ quote := by
  have hhex : ∀ x : HexUnit, x.1 ≠ quote := by
    intro x
    have hx := x.2
    simp only [isHexUnit, Bool.or_eq_true, Bool.and_eq_true, decide_eq_true_eq] at hx
    unfold quote
    omega
  intro c hc
  cases item with
  | plain d =>
      rw [StringItem.text, List.mem_singleton] at hc
      rw [hc]
      exact (plain_ne d.2).1
  | escape e =>
      simp only [StringItem.text, List.mem_cons, List.not_mem_nil, or_false] at hc
      rcases hc with h | h
      · rw [h]
        decide
      · rw [h]
        cases e with
        | quote => exact absurd rfl hitem
        | _ => decide
  | unicode x y z w =>
      simp only [StringItem.text, List.mem_cons, List.not_mem_nil, or_false] at hc
      rcases hc with h | h | h | h | h | h
      · rw [h]
        decide
      · rw [h]
        decide
      · exact h ▸ hhex x
      · exact h ▸ hhex y
      · exact h ▸ hhex z
      · exact h ▸ hhex w

/-- In a string the pattern is found from an escaped quote on, if the name is all that
follows. -/
theorem replaceFirst_items
    (replacement : Text) {items : List StringItem} {rest : Text}
    (hrest : rest.head? ≠ some 99) :
    replaceFirst replacement (itemsText items ++ quote :: rest) =
      replaceAfter replacement (itemsText items ++ [quote]) rest
        (if (.escape .quote :: nameItems) <:+ items then matchGap rest else none) := by
  induction items with
  | nil =>
      have hname : ¬fieldName <+: quote :: rest := by
        intro h
        rcases (List.cons_prefix_cons.mp h).2 with ⟨s, hs⟩
        apply hrest
        rw [← hs]
        rfl
      have hshort : ¬(StringItem.escape .quote :: nameItems) <:+ [] := by
        rw [List.suffix_nil]
        exact List.cons_ne_nil _ _
      change replaceFirst replacement (quote :: rest) = _
      rw [replaceFirst, matchField, if_neg hname, if_neg hshort]
      rfl
  | cons item items ih =>
      have hsuffix : (StringItem.escape .quote :: nameItems) <:+ item :: items ↔
          (.escape .quote = item ∧ nameItems = items) ∨
            (StringItem.escape .quote :: nameItems) <:+ items := by
        rw [List.suffix_cons_iff, List.cons.injEq]
      rw [itemsText_cons, List.append_assoc, List.append_assoc]
      by_cases hitem : item = .escape .quote
      · rw [hitem] at hsuffix ⊢
        change replaceFirst replacement
          ([backslash] ++ quote :: (itemsText items ++ quote :: rest)) = _
        rw [replaceFirst_skip (by decide), replaceFirst_at_quote]
        by_cases hname : items = nameItems
        · have hshort : ¬(StringItem.escape .quote :: nameItems) <:+ items := by
            intro h
            have hle := h.length_le
            rw [hname, List.length_cons] at hle
            omega
          rw [if_neg hshort] at ih
          rw [if_pos hname, if_pos (hsuffix.mpr (.inl ⟨rfl, hname.symm⟩)), ih]
          cases matchGap rest with
          | none => simp [replaceAfter, StringItem.text, Escape.letter, backslash, quote]
          | some g => simp [replaceAfter, StringItem.text, Escape.letter, backslash, quote]
        · have hiff : (StringItem.escape .quote :: nameItems) <:+ .escape .quote :: items ↔
              (StringItem.escape .quote :: nameItems) <:+ items := by
            rw [hsuffix, or_iff_right]
            intro h
            exact hname h.2.symm
          rw [if_neg hname, ih]
          simp only [hiff]
          generalize (if (StringItem.escape .quote :: nameItems) <:+ items then matchGap rest
            else none) = gap
          cases gap with
          | none => simp [replaceAfter, StringItem.text, Escape.letter, backslash, quote]
          | some g => simp [replaceAfter, StringItem.text, Escape.letter, backslash, quote]
      · have hiff : (StringItem.escape .quote :: nameItems) <:+ item :: items ↔
            (StringItem.escape .quote :: nameItems) <:+ items := by
          rw [hsuffix, or_iff_right]
          intro h
          exact hitem h.1.symm
        rw [replaceFirst_skip (ne_quote_of_item hitem), ih, replaceAfter_append]
        simp only [hiff]

theorem replaceFirst_quoted
    (replacement : Text) {items : List StringItem} {rest : Text}
    (hrest : rest.head? ≠ some 99) :
    replaceFirst replacement (quoted items ++ rest) =
      replaceAfter replacement (quoted items) rest
        (if looksLikeName items then matchGap rest else none) := by
  have hquoted : ∀ s, quoted items ++ s = quote :: (itemsText items ++ quote :: s) := by
    intro s
    simp [quoted]
  have hitems := @replaceFirst_items replacement items rest hrest
  rw [hquoted, replaceFirst_at_quote, hitems]
  by_cases hname : items = nameItems
  · have hshort : ¬(StringItem.escape .quote :: nameItems) <:+ items := by
      intro h
      have hle := h.length_le
      rw [hname, List.length_cons] at hle
      omega
    have hlooks : looksLikeName items = true := by
      simp [looksLikeName, hname]
    rw [if_pos hname, if_pos hlooks, if_neg hshort]
    cases matchGap rest with
    | none => simp [replaceAfter, quoted]
    | some g => simp [replaceAfter, quoted]
  · have hlooks : looksLikeName items = true ↔
        (StringItem.escape .quote :: nameItems) <:+ items := by
      simp [looksLikeName, hname]
    rw [if_neg hname]
    simp only [hlooks]
    rw [← List.singleton_append, replaceAfter_append]
    rfl

/-! ## The gap between a name and its value -/

theorem atomUnit_not_special
    {c : ℕ}
    (hc : isAtomUnit c = true) :
    isJsSpace c = false ∧ c ≠ quote ∧ c ≠ 58 ∧ c ≠ 99 := by
  have hmem : c ∈ (List.range 128).filter isAtomUnit := by
    rw [List.mem_filter, List.mem_range]
    refine ⟨?_, hc⟩
    simp only [isAtomUnit, isDigitUnit, Bool.or_eq_true, Bool.and_eq_true,
      decide_eq_true_eq] at hc
    rcases hc with hdigit | hmem
    · omega
    · have hall : ∀ d ∈ units "+-.Eaeflnrstu", d < 128 := by decide +kernel
      exact hall c hmem
  have hall : ∀ d ∈ (List.range 128).filter isAtomUnit,
      isJsSpace d = false ∧ d ≠ quote ∧ d ≠ 58 ∧ d ≠ 99 := by
    decide +kernel
  exact hall c hmem

theorem blank_isJsSpace
    {c : ℕ}
    (hc : isBlankUnit c = true) :
    isJsSpace c = true := by
  simp only [isBlankUnit, Bool.or_eq_true, decide_eq_true_eq] at hc
  rcases hc with ((h | h) | h) | h <;>
  · rw [h]
    rfl

theorem head_not_c (ts : List Token) : (tokensText ts).head? ≠ some 99 := by
  cases ts with
  | nil => simp [tokensText]
  | cons t ts =>
      rw [tokensText_cons]
      cases t with
      | punct p => cases p <;> simp [Token.text, Punct.code]
      | blank c =>
          intro h
          have hc := c.2
          rw [Option.some.inj h] at hc
          cases hc
      | str items => simp [Token.text, quoted, quote]
      | atom a =>
          rcases a.head_isAtomUnit with ⟨c, s, hcons, hc⟩
          rw [Token.text, hcons]
          intro h
          exact (atomUnit_not_special hc).2.2.2 (Option.some.inj h)

/-- The tokens before and after a place. -/
def around (ts : List Token) (k : ℕ) : Text × Text :=
  (tokensText (ts.take k), tokensText (ts.drop (k + 1)))

theorem around_succ (t : Token) (ts : List Token) (k : ℕ) :
    around (t :: ts) (k + 1) = (t.text ++ (around ts k).1, (around ts k).2) := by
  simp [around, tokensText_cons]

theorem map_around_succ (t : Token) (ts : List Token) (o : Option ℕ) :
    ((o.map (around ts)).map fun r => (t.text ++ r.1, r.2)) =
      (o.map (· + 1)).map (around (t :: ts)) := by
  cases o with
  | none => rfl
  | some k => rw [Option.map_some, Option.map_some, Option.map_some, Option.map_some, around_succ]

theorem matchValue_tokens (ts : List Token) :
    matchValue (tokensText ts) = (valueOffset ts).map (around ts) := by
  induction ts with
  | nil => rfl
  | cons t ts ih =>
      rw [tokensText_cons]
      cases t with
      | punct p =>
          have hp : isJsSpace p.code = false ∧ p.code ≠ quote := by cases p <;> decide
          rw [Token.text, List.singleton_append, matchValue, hp.1,
            if_neg Bool.false_ne_true, if_neg hp.2]
          rfl
      | blank c =>
          rw [Token.text, List.singleton_append, matchValue, if_pos (blank_isJsSpace c.2), ih,
            valueOffset]
          exact map_around_succ (.blank c) ts _
      | str items =>
          have htext : (Token.str items).text ++ tokensText ts =
              quote :: (itemsText items ++ quote :: tokensText ts) := by
            simp [Token.text, quoted]
          have hspace : isJsSpace quote = false := by decide
          rw [htext, matchValue, hspace, if_neg Bool.false_ne_true, if_pos rfl,
            matchContent_itemsText]
          rfl
      | atom a =>
          rcases a.head_isAtomUnit with ⟨c, s, hcons, hc⟩
          have hspec := atomUnit_not_special hc
          rw [Token.text, hcons, List.cons_append, matchValue, hspec.1,
            if_neg Bool.false_ne_true, if_neg hspec.2.1]
          rfl

theorem matchGap_tokens (ts : List Token) :
    matchGap (tokensText ts) = (gapOffset ts).map (around ts) := by
  induction ts with
  | nil => rfl
  | cons t ts ih =>
      rw [tokensText_cons]
      cases t with
      | punct p =>
          have hp : isJsSpace p.code = false := by cases p <;> decide
          rw [Token.text, List.singleton_append, matchGap, hp, if_neg Bool.false_ne_true]
          by_cases hcolon : p = .colon
          · have hcode : Punct.colon.code = 58 := rfl
            rw [hcolon, if_pos hcode, matchValue_tokens, gapOffset]
            exact map_around_succ (.punct .colon) ts _
          · have hcode : p.code ≠ 58 := by
              cases p with
              | colon => exact absurd rfl hcolon
              | _ => decide
            have hnone : gapOffset (.punct p :: ts) = none := by
              cases p with
              | colon => exact absurd rfl hcolon
              | _ => rfl
            rw [if_neg hcode, hnone]
            rfl
      | blank c =>
          rw [Token.text, List.singleton_append, matchGap, if_pos (blank_isJsSpace c.2), ih,
            gapOffset]
          exact map_around_succ (.blank c) ts _
      | str items =>
          have hspace : isJsSpace quote = false := by decide
          change matchGap (quote :: _) = _
          rw [matchGap, hspace, if_neg Bool.false_ne_true, if_neg (by decide)]
          rfl
      | atom a =>
          rcases a.head_isAtomUnit with ⟨c, s, hcons, hc⟩
          have hspec := atomUnit_not_special hc
          rw [Token.text, hcons, List.cons_append, matchGap, hspec.1,
            if_neg Bool.false_ne_true, if_neg hspec.2.2.1]
          rfl

/-! ## Replacement of a token -/

/-- The tokens with a string put in the place that the pattern finds. -/
def setField (items : List StringItem) (ts : List Token) : List Token :=
  match fieldIndex ts with
  | some i => ts.set i (.str items)
  | none => ts

theorem setField_cons
    {items : List StringItem} {t : Token} {ts : List Token}
    (h : fieldIndex (t :: ts) = (fieldIndex ts).map (· + 1)) :
    setField items (t :: ts) = t :: setField items ts := by
  unfold setField
  rw [h]
  cases fieldIndex ts <;> rfl

/-- The place is that of a string behind a colon and blanks. -/
def BehindColon (ts : List Token) (i : ℕ) : Prop :=
  ∃ (before : List Token) (blanks : List { c : ℕ // isBlankUnit c = true })
    (items : List StringItem) (after : List Token),
    ts = before ++ .punct .colon :: (blanks.map Token.blank ++ .str items :: after) ∧
      i = before.length + (blanks.length + 1)

theorem BehindColon.get
    {ts : List Token} {i : ℕ}
    (h : BehindColon ts i) :
    ∃ items, ts[i]? = some (.str items) := by
  rcases h with ⟨before, blanks, items, after, rfl, rfl⟩
  refine ⟨items, ?_⟩
  rw [List.getElem?_append_right (by omega), Nat.add_sub_cancel_left, List.getElem?_cons_succ,
    List.getElem?_append_right (by simp), List.length_map, Nat.sub_self]
  rfl

theorem BehindColon.cons
    {ts : List Token} {i : ℕ} (t : Token)
    (h : BehindColon ts i) :
    BehindColon (t :: ts) (i + 1) := by
  rcases h with ⟨before, blanks, items, after, rfl, rfl⟩
  refine ⟨t :: before, blanks, items, after, rfl, ?_⟩
  rw [List.length_cons]
  omega

theorem valueOffset_spec
    {ts : List Token} {k : ℕ}
    (h : valueOffset ts = some k) :
    ∃ (blanks : List { c : ℕ // isBlankUnit c = true }) (items : List StringItem)
      (after : List Token),
      ts = blanks.map Token.blank ++ .str items :: after ∧ k = blanks.length := by
  induction ts generalizing k with
  | nil => cases h
  | cons t ts ih =>
      cases t with
      | punct p => cases h
      | blank c =>
          rcases Option.map_eq_some_iff.mp h with ⟨k', hk, heq⟩
          rcases ih hk with ⟨blanks, items, after, hts, hlength⟩
          exact ⟨c :: blanks, items, after, by rw [hts]; rfl, by rw [← heq, hlength]; rfl⟩
      | str items =>
          cases h
          exact ⟨[], items, ts, rfl, rfl⟩
      | atom a => cases h

theorem gapOffset_spec
    {ts : List Token} {k : ℕ}
    (h : gapOffset ts = some k) :
    BehindColon ts k := by
  induction ts generalizing k with
  | nil => cases h
  | cons t ts ih =>
      cases t with
      | punct p =>
          cases p with
          | colon =>
              rcases Option.map_eq_some_iff.mp h with ⟨k', hk, heq⟩
              rcases valueOffset_spec hk with ⟨blanks, items, after, hts, hlength⟩
              refine ⟨[], blanks, items, after, by rw [hts]; rfl, ?_⟩
              rw [← heq, hlength, List.length_nil, Nat.zero_add]
          | _ => cases h
      | blank c =>
          rcases Option.map_eq_some_iff.mp h with ⟨k', hk, heq⟩
          rw [← heq]
          exact BehindColon.cons _ (ih hk)
      | str items => cases h
      | atom a => cases h

/-- The pattern finds a string behind a colon. -/
theorem fieldIndex_spec
    {ts : List Token} {i : ℕ}
    (h : fieldIndex ts = some i) :
    BehindColon ts i := by
  induction ts generalizing i with
  | nil => cases h
  | cons t ts ih =>
      have hlater : (fieldIndex ts).map (· + 1) = some i →
          BehindColon (t :: ts) i := by
        intro hmap
        rcases Option.map_eq_some_iff.mp hmap with ⟨i', hi, heq⟩
        rw [← heq]
        exact BehindColon.cons _ (ih hi)
      cases t with
      | str items =>
          rw [fieldIndex] at h
          by_cases hlooks : looksLikeName items = true
          · rw [if_pos hlooks] at h
            cases hgap : gapOffset ts with
            | some k =>
                rw [hgap] at h
                cases h
                exact BehindColon.cons _ (gapOffset_spec hgap)
            | none =>
                rw [hgap] at h
                exact hlater h
          · rw [if_neg hlooks] at h
            exact hlater h
      | punct p => exact hlater h
      | blank c => exact hlater h
      | atom a => exact hlater h

theorem gapOffset_lt
    {ts : List Token} {k : ℕ}
    (h : gapOffset ts = some k) :
    k < ts.length := by
  rcases (gapOffset_spec h).get with ⟨items, hget⟩
  exact (List.getElem?_eq_some_iff.mp hget).1

theorem tokensText_set
    {ts : List Token} {k : ℕ}
    (hk : k < ts.length) (t : Token) :
    tokensText (ts.set k t) = (around ts k).1 ++ (t.text ++ (around ts k).2) := by
  rw [List.set_eq_take_append_cons_drop, if_pos hk]
  simp [tokensText, around]

/-- On the text of tokens the pattern replaces a string token. -/
theorem replaceFirst_tokens (items : List StringItem) (ts : List Token) :
    replaceFirst (quoted items) (tokensText ts) = tokensText (setField items ts) := by
  induction ts with
  | nil => rfl
  | cons t ts ih =>
      have hskip : (∀ c ∈ t.text, c ≠ quote) →
          fieldIndex (t :: ts) = (fieldIndex ts).map (· + 1) →
          replaceFirst (quoted items) (tokensText (t :: ts)) =
            tokensText (setField items (t :: ts)) := by
        intro hquote hindex
        rw [tokensText_cons, replaceFirst_skip hquote, ih, setField_cons hindex,
          tokensText_cons]
      cases t with
      | punct p =>
          apply hskip
          · intro c hc
            rw [Token.text, List.mem_singleton] at hc
            rw [hc]
            cases p <;> decide
          · rfl
      | blank b =>
          apply hskip
          · intro c hc heq
            rw [Token.text, List.mem_singleton] at hc
            have hb := b.2
            rw [← hc, heq] at hb
            cases hb
          · rfl
      | atom a =>
          apply hskip
          · intro c hc
            have hunit := List.all_eq_true.mp a.units c hc
            exact (atomUnit_not_special hunit).2.1
          · rfl
      | str name =>
          rw [tokensText_cons]
          change replaceFirst (quoted items) (quoted name ++ tokensText ts) = _
          rw [replaceFirst_quoted _ (head_not_c ts), matchGap_tokens]
          unfold replaceAfter
          by_cases hlooks : looksLikeName name = true
          · rw [if_pos hlooks]
            cases hgap : gapOffset ts with
            | some k =>
                have hindex : fieldIndex (.str name :: ts) = some (k + 1) := by
                  rw [fieldIndex, if_pos hlooks, hgap]
                rw [setField, hindex]
                dsimp only
                rw [List.set_cons_succ, tokensText_cons, tokensText_set (gapOffset_lt hgap)]
                rfl
            | none =>
                have hindex : fieldIndex (.str name :: ts) = (fieldIndex ts).map (· + 1) := by
                  rw [fieldIndex, if_pos hlooks, hgap]
                rw [setField_cons hindex, tokensText_cons, ← ih]
                rfl
          · have hindex : fieldIndex (.str name :: ts) = (fieldIndex ts).map (· + 1) := by
              rw [fieldIndex, if_neg hlooks]
            rw [if_neg hlooks, setField_cons hindex, tokensText_cons, ← ih]
            rfl

end Untangled.Csrf
