import Mathlib.Order.Interval.Finset.Basic
import Mathlib.Data.Int.Interval
import Mathlib.Tactic

/-!
# Paging through a list

A list page is addressed by the 1-based number of its first row and the number
of rows a page holds.  Starts need not be aligned to pages: the reader may type
any record number, which is clamped to the start of the last page.  Walking on
with Next from there shows every row once the walk ends, and it does end.

Numbers are integers; where the total and a page together are safe integers of
JavaScript, so is every number that a walk comes by.
-/

namespace Untangled.Pagination

/-! ## Reading a number -/

/-- The number nearest to `n`, ties going to the even significand, or `none` for
`Infinity`. -/
def nearestNumber (n : ℕ) : Option ℕ :=
  let unit := 2 ^ (n.log2 - 52)
  let remainder := n % unit
  let significand :=
    if 2 * remainder < unit ∨ 2 * remainder = unit ∧ n / unit % 2 = 0 then n / unit
    else n / unit + 1
  if significand * unit < 2 ^ 1024 then some (significand * unit) else none

/-- `Number.parseInt(digits, 10)` on a non-empty text of digits. -/
def parseInt (digits : List Char) : Option ℕ :=
  nearestNumber (Nat.ofDigitChars 10 digits 0)

/-- `raw.replace(/\D/g, "")` -/
def digitsOnly (raw : String) : List Char :=
  raw.toList.filter Char.isDigit

/-- What the starting-record field is committed with: the text typed into it, or
a number, of which the code reads `String(Math.trunc(raw))`. -/
inductive StartingRecord where
  | text (raw : String)
  | number (truncated : String)

def StartingRecord.digits : StartingRecord → List Char
  | .text raw => digitsOnly raw
  | .number truncated => digitsOnly truncated

/-! ## The helpers of the list page -/

def startFromOffset (offset : ℤ) : ℤ := offset + 1

def offsetFromStart (start : ℤ) : ℤ := start - 1

def lastPageStart (total perPage : ℤ) : ℤ :=
  if total ≤ 0 ∨ perPage < 1 then 1 else (total - 1) / perPage * perPage + 1

def canGoNext (start total perPage : ℤ) : Bool :=
  !decide (start > total - perPage)

/-- `Math.min(a, b)` -/
def mathMin (a b : ℤ) : ℤ := if b < a then b else a

/-- `Math.max(a, b)` -/
def mathMax (a b : ℤ) : ℤ := if a < b then b else a

def visibleRowCount (total offset limit : ℤ) : ℤ :=
  mathMin limit (mathMax 0 (total - offset))

def perPageChangeNeedsRefresh (start total oldPerPage newPerPage : ℤ) : Bool :=
  if oldPerPage = newPerPage then false
  else
    visibleRowCount total (offsetFromStart start) oldPerPage !=
      visibleRowCount total (offsetFromStart start) newPerPage

def clampStartingRecord (raw : StartingRecord) (total perPage : ℤ) : ℤ :=
  let start : ℤ :=
    if raw.digits.length = 0 then 1
    else
      match parseInt raw.digits with
      | none => 1
      | some n => if (n : ℤ) < 1 then 1 else n
  let last := lastPageStart total perPage
  if start > last then last else start

def startPastLastPage (offset total limit : ℤ) : Bool :=
  decide (startFromOffset offset > lastPageStart total limit)

def clampedOffsetForTotal (total limit : ℤ) : ℤ :=
  offsetFromStart (lastPageStart total limit)

/-! ## The rows of a page -/

/-- The record numbers the search shows for a start and a limit. -/
noncomputable def window (total start limit : ℤ) : Finset ℤ :=
  (Finset.Icc 1 total).filter fun row => start ≤ row ∧ row < start + limit

theorem mem_window
    {total start limit row : ℤ} :
    row ∈ window total start limit ↔
      start ≤ row ∧ row < start + limit ∧ 1 ≤ row ∧ row ≤ total := by
  rw [window, Finset.mem_filter, Finset.mem_Icc]
  omega

theorem window_of_le
    {start : ℤ} (hstart : 1 ≤ start) (total limit : ℤ) :
    window total start limit = Finset.Icc start (min (start + limit - 1) total) := by
  ext row
  rw [mem_window, Finset.mem_Icc]
  omega

/-- The count the page computes is the number of rows it shows. -/
theorem card_window
    {start limit : ℤ} (hstart : 1 ≤ start) (hlimit : 1 ≤ limit) (total : ℤ) :
    ((window total start limit).card : ℤ) =
      visibleRowCount total (offsetFromStart start) limit := by
  rw [window_of_le hstart, Int.card_Icc, visibleRowCount, offsetFromStart, mathMin, mathMax]
  split_ifs <;> omega

/-- Windows at one start are initial parts of each other, so their sizes tell
them apart. -/
theorem window_eq_iff_card
    {start : ℤ} (hstart : 1 ≤ start) (total a b : ℤ) :
    window total start a = window total start b ↔
      (window total start a).card = (window total start b).card := by
  constructor
  · exact congrArg Finset.card
  · intro hcard
    rw [window_of_le hstart, window_of_le hstart, Int.card_Icc, Int.card_Icc] at hcard
    ext row
    rw [mem_window, mem_window]
    omega

theorem perPageChangeNeedsRefresh_iff
    {start a b : ℤ} (hstart : 1 ≤ start) (ha : 1 ≤ a) (hb : 1 ≤ b) (total : ℤ) :
    perPageChangeNeedsRefresh start total a b = true ↔
      window total start a ≠ window total start b := by
  rw [Ne, window_eq_iff_card hstart, ← Nat.cast_inj (R := ℤ), card_window hstart ha,
    card_window hstart hb, perPageChangeNeedsRefresh]
  by_cases hsame : a = b
  · simp [hsame]
  · simp [hsame]

/-! ## The last page -/

/-- A list that has rows and a page size that shows some. -/
structure Listing where
  total : ℤ
  perPage : ℤ
  total_pos : 1 ≤ total
  perPage_pos : 1 ≤ perPage

namespace Listing

variable (p : Listing)

def lastStart : ℤ := lastPageStart p.total p.perPage

/-- The last page starts within the list and reaches its end. -/
theorem lastStart_bounds :
    1 ≤ p.lastStart ∧ p.lastStart ≤ p.total ∧ p.total < p.lastStart + p.perPage := by
  have htotal := p.total_pos
  have hperPage := p.perPage_pos
  have hdivision := Int.mul_ediv_add_emod (p.total - 1) p.perPage
  have hnonneg := Int.emod_nonneg (p.total - 1) (show p.perPage ≠ 0 by omega)
  have hlt := Int.emod_lt_of_pos (p.total - 1) (show 0 < p.perPage by omega)
  have hquotient : 0 ≤ (p.total - 1) / p.perPage * p.perPage :=
    mul_nonneg (Int.ediv_nonneg (by omega) (by omega)) (by omega)
  rw [mul_comm] at hdivision
  rw [lastStart, lastPageStart, if_neg (by omega)]
  omega

/-- A start that the page accepts: a record number up to the last page's. -/
def OnPage (start : ℤ) : Prop := 1 ≤ start ∧ start ≤ p.lastStart

theorem clampStartingRecord_onPage (raw : StartingRecord) :
    p.OnPage (clampStartingRecord raw p.total p.perPage) := by
  have hlast := p.lastStart_bounds
  rw [OnPage, clampStartingRecord, ← lastStart]
  have hstart : ∀ start : ℤ, 1 ≤ start →
      1 ≤ (if start > p.lastStart then p.lastStart else start) ∧
        (if start > p.lastStart then p.lastStart else start) ≤ p.lastStart := by
    intro start hpos
    by_cases h : start > p.lastStart
    · rw [if_pos h]
      exact ⟨hlast.1, le_refl _⟩
    · rw [if_neg h]
      omega
  apply hstart
  by_cases hempty : raw.digits.length = 0
  · rw [if_pos hempty]
  · rw [if_neg hempty]
    cases parseInt raw.digits with
    | none => exact le_refl 1
    | some n =>
        by_cases hn : (n : ℤ) < 1
        · simp [hn]
        · simp only [hn, if_false]
          omega

variable {p}

theorem OnPage.not_startPastLastPage {start : ℤ} (h : p.OnPage start) :
    startPastLastPage (offsetFromStart start) p.total p.perPage = false := by
  have hle : start ≤ lastPageStart p.total p.perPage := h.2
  rw [startPastLastPage, startFromOffset, offsetFromStart, decide_eq_false_iff_not]
  omega

theorem OnPage.mem_window {start : ℤ} (h : p.OnPage start) :
    start ∈ window p.total start p.perPage := by
  have hlast := p.lastStart_bounds
  have hperPage := p.perPage_pos
  rw [Pagination.mem_window]
  rcases h with ⟨hpos, hle⟩
  omega

variable (p)

/-! ## Walking on -/

/-- Where Next leads from a page. -/
def next (start : ℤ) : ℤ :=
  if startPastLastPage (offsetFromStart (start + p.perPage)) p.total p.perPage then
    startFromOffset (clampedOffsetForTotal p.total p.perPage)
  else start + p.perPage

theorem next_eq_min (start : ℤ) : p.next start = min (start + p.perPage) p.lastStart := by
  rw [next, startPastLastPage, clampedOffsetForTotal, startFromOffset, startFromOffset,
    offsetFromStart, offsetFromStart, sub_add_cancel, sub_add_cancel, ← lastStart]
  by_cases h : start + p.perPage > p.lastStart
  · rw [if_pos (decide_eq_true h)]
    omega
  · rw [if_neg (by simpa using h)]
    omega

variable {p}

theorem canGoNext_iff {start : ℤ} :
    canGoNext start p.total p.perPage = true ↔ start + p.perPage ≤ p.total := by
  rw [canGoNext, Bool.not_eq_true', decide_eq_false_iff_not]
  omega

theorem lt_next {start : ℤ} (h : canGoNext start p.total p.perPage = true) :
    start < p.next start := by
  have hlast := p.lastStart_bounds
  have hperPage := p.perPage_pos
  rw [canGoNext_iff] at h
  rw [next_eq_min]
  omega

theorem OnPage.next {start : ℤ} (h : p.OnPage start) : p.OnPage (p.next start) := by
  have hlast := p.lastStart_bounds
  have hperPage := p.perPage_pos
  rcases h with ⟨hpos, hle⟩
  rw [OnPage, next_eq_min]
  omega

variable (p)

/-- The starts of the pages shown from `start` on, as long as Next is enabled. -/
def walk (start : ℤ) : List ℤ :=
  start ::
    if canGoNext start p.total p.perPage then walk (p.next start) else []
termination_by (p.total - start).toNat
decreasing_by
  rename_i h
  have hlt := lt_next h
  have hperPage := p.perPage_pos
  rw [canGoNext_iff] at h
  omega

variable {p}

theorem walk_of_canGoNext {start : ℤ} (h : canGoNext start p.total p.perPage = true) :
    p.walk start = start :: p.walk (p.next start) := by
  rw [walk, if_pos h]

theorem walk_of_not_canGoNext {start : ℤ} (h : ¬ canGoNext start p.total p.perPage = true) :
    p.walk start = [start] := by
  rw [walk, if_neg h]

/-- Every page of a walk is one the list has. -/
theorem OnPage.of_mem_walk {start : ℤ} (h : p.OnPage start) :
    ∀ shown ∈ p.walk start, p.OnPage shown := by
  induction start using Listing.walk.induct p with
  | case1 start ih =>
      by_cases hnext : canGoNext start p.total p.perPage = true
      · intro shown hshown
        rw [walk_of_canGoNext hnext, List.mem_cons] at hshown
        rcases hshown with rfl | hshown
        · exact h
        · exact ih hnext h.next shown hshown
      · intro shown hshown
        rw [walk_of_not_canGoNext hnext, List.mem_singleton] at hshown
        exact hshown ▸ h

/-- No row from the first page on is left out. -/
theorem OnPage.exists_mem_walk {start : ℤ} (h : p.OnPage start) {row : ℤ} (hrow : start ≤ row)
    (htotal : row ≤ p.total) : ∃ shown ∈ p.walk start, row ∈ window p.total shown p.perPage := by
  induction start using Listing.walk.induct p with
  | case1 start ih =>
      by_cases hfirst : row < start + p.perPage
      · have hmem : row ∈ window p.total start p.perPage := by
          rw [Pagination.mem_window]
          have hpos := h.1
          omega
        refine ⟨start, ?_, hmem⟩
        rw [walk]
        exact List.mem_cons_self ..
      · have hnext : canGoNext start p.total p.perPage = true := by
          rw [canGoNext_iff]
          omega
        have hle : p.next start ≤ row := by
          rw [next_eq_min]
          omega
        rcases ih hnext h.next hle with ⟨shown, hshown, hmem⟩
        rw [walk_of_canGoNext hnext]
        exact ⟨shown, List.mem_cons_of_mem _ hshown, hmem⟩

/-- The walk ends where Next is disabled, and there the last row is shown. -/
theorem OnPage.getLast_walk {start : ℤ} (h : p.OnPage start) :
    ∃ final, (p.walk start).getLast? = some final ∧
      canGoNext final p.total p.perPage = false ∧
        p.total ∈ window p.total final p.perPage := by
  induction start using Listing.walk.induct p with
  | case1 start ih =>
      by_cases hnext : canGoNext start p.total p.perPage = true
      · rcases ih hnext h.next with ⟨final, hfinal, hstop, hmem⟩
        refine ⟨final, ?_, hstop, hmem⟩
        rw [walk_of_canGoNext hnext, List.getLast?_cons, hfinal, Option.getD_some]
      · refine ⟨start, ?_, by simpa using hnext, ?_⟩
        · rw [walk_of_not_canGoNext hnext]
          rfl
        · have hlast := p.lastStart_bounds
          rcases h with ⟨hpos, hle⟩
          rw [canGoNext_iff] at hnext
          rw [Pagination.mem_window]
          omega

/-- A walk shows at most one page for each row that is left. -/
theorem OnPage.length_walk {start : ℤ} (h : p.OnPage start) :
    ((p.walk start).length : ℤ) ≤ p.total - start + 1 := by
  induction start using Listing.walk.induct p with
  | case1 start ih =>
      have hlast := p.lastStart_bounds
      by_cases hnext : canGoNext start p.total p.perPage = true
      · have hlt := lt_next hnext
        have hrest := ih hnext h.next
        rw [walk_of_canGoNext hnext, List.length_cons]
        push_cast
        omega
      · have hle := h.2
        rw [walk_of_not_canGoNext hnext, List.length_singleton]
        push_cast
        omega

/-- JavaScript holds the integer exactly, and its neighbours as well. -/
def SafeInteger (n : ℤ) : Prop := -(2 ^ 53 - 1) ≤ n ∧ n ≤ 2 ^ 53 - 1

/-- The sums and differences that the page computes at a start of a walk. -/
theorem OnPage.safe {start : ℤ} (h : p.OnPage start)
    (hsafe : SafeInteger (p.total + p.perPage)) :
    ∀ shown ∈ p.walk start, ∀ n ∈ [shown, shown + p.perPage, offsetFromStart shown,
      p.total - p.perPage, p.total - offsetFromStart shown, p.lastStart,
      offsetFromStart p.lastStart, p.next shown], SafeInteger n := by
  intro shown hshown
  rcases h.of_mem_walk shown hshown with ⟨hpos, hle⟩
  have hlast := p.lastStart_bounds
  have htotal := p.total_pos
  have hperPage := p.perPage_pos
  have hupper : p.total + p.perPage ≤ 2 ^ 53 - 1 := hsafe.2
  simp only [List.forall_mem_cons, List.not_mem_nil, false_implies, implies_true, and_true,
    next_eq_min, offsetFromStart, SafeInteger]
  omega

variable (p)

/-- Paging by Next from any record the field accepts shows all rows from it on
and stops at the last one. -/
theorem walk_shows_every_row (raw : StartingRecord) :
    let start := clampStartingRecord raw p.total p.perPage
    ((p.walk start).length : ℤ) ≤ p.total - start + 1 ∧
      (∀ shown ∈ p.walk start, (window p.total shown p.perPage).Nonempty) ∧
      (∀ row, start ≤ row → row ≤ p.total →
        ∃ shown ∈ p.walk start, row ∈ window p.total shown p.perPage) ∧
      (∃ final, (p.walk start).getLast? = some final ∧
        canGoNext final p.total p.perPage = false ∧
          p.total ∈ window p.total final p.perPage) ∧
      startPastLastPage (offsetFromStart start) p.total p.perPage = false ∧
      ∀ a b, 1 ≤ a → 1 ≤ b →
        (perPageChangeNeedsRefresh start p.total a b = true ↔
          window p.total start a ≠ window p.total start b) := by
  intro start
  have h : p.OnPage start := p.clampStartingRecord_onPage raw
  have hwindows : ∀ shown ∈ p.walk start, (window p.total shown p.perPage).Nonempty := by
    intro shown hshown
    exact ⟨shown, (h.of_mem_walk shown hshown).mem_window⟩
  have hrows : ∀ row, start ≤ row → row ≤ p.total →
      ∃ shown ∈ p.walk start, row ∈ window p.total shown p.perPage := by
    intro row hrow htotal
    exact h.exists_mem_walk hrow htotal
  have hrefresh : ∀ a b, 1 ≤ a → 1 ≤ b →
      (perPageChangeNeedsRefresh start p.total a b = true ↔
        window p.total start a ≠ window p.total start b) := by
    intro a b ha hb
    exact perPageChangeNeedsRefresh_iff h.1 ha hb p.total
  exact ⟨h.length_walk, hwindows, hrows, h.getLast_walk, h.not_startPastLastPage, hrefresh⟩

/-- Twenty-five records in pages of ten. -/
def twentyFive : Listing where
  total := 25
  perPage := 10
  total_pos := by decide
  perPage_pos := by decide

theorem twentyFive_from_seven :
    twentyFive.walk 7 = [7, 17] ∧
      ∀ row, 7 ≤ row → row ≤ 25 → ∃ shown ∈ [7, 17], row ∈ window 25 shown 10 := by
  have hwalk : twentyFive.walk 7 = [7, 17] := by
    rw [walk_of_canGoNext (by decide), show twentyFive.next 7 = 17 from rfl,
      walk_of_not_canGoNext (by decide)]
  have hshown := (twentyFive.walk_shows_every_row (.text "no. 7")).2.2.1
  have hstart : clampStartingRecord (.text "no. 7") twentyFive.total twentyFive.perPage = 7 := by
    decide +kernel
  rw [hstart, hwalk] at hshown
  exact ⟨hwalk, hshown⟩

end Listing

end Untangled.Pagination
