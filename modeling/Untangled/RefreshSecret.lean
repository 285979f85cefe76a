import Mathlib.Data.List.DropRight
import Mathlib.Data.List.TakeWhile
import Untangled.Base64
import Untangled.Login

/-!
# The refresh secret

`decode_base64_secret` of the auth service.  The platform decoder never fails; a test of
the shape and the encoding of the result are what tell a secret from anything else.
-/

namespace Untangled.RefreshSecret

open Base64

def minRefreshHmacSecretBytes : ℕ := 32

/-- `text.replace(/\s+/g, "")` -/
def compactText (text : List Char) : List Char :=
  text.filter fun c => !Auth.jsWhitespace c

/-- `/^[A-Za-z0-9+/]+={0,2}$/` -/
def base64Body (s : List Char) : Bool :=
  let core := s.takeWhile (· ∈ alphabet)
  let rest := s.dropWhile (· ∈ alphabet)
  core ≠ [] && rest.length ≤ 2 && rest.all (· = '=')

/-- `s.replace(/=+$/, "")` -/
def stripPadding (s : List Char) : List Char :=
  s.rdropWhile (· = '=')

def decodeBase64Secret (text : List Char) : Except String (List UInt8) :=
  let compact := compactText text
  if compact = [] then throw "UNTANGLED_REFRESH_HMAC_SECRET_PATH is empty"
  else if compact.length % 4 ≠ 0 ∨ base64Body compact = false then
    throw "UNTANGLED_REFRESH_HMAC_SECRET_PATH must be base64-encoded secret bytes"
  else
    let decoded := decode compact
    let roundTrip := encode decoded
    if roundTrip ≠ compact ∧ stripPadding roundTrip ≠ stripPadding compact then
      throw "UNTANGLED_REFRESH_HMAC_SECRET_PATH must be base64-encoded secret bytes"
    else if decoded.length < minRefreshHmacSecretBytes then
      throw "UNTANGLED_REFRESH_HMAC_SECRET_PATH must decode to at least 32 bytes"
    else pure decoded

theorem pad_notMem : '=' ∉ alphabet := by
  decide

/-! ## The shape -/

theorem core_of_shaped
    {s core : List Char} {p : ℕ}
    (h : Shaped s core p) :
    s.takeWhile (· ∈ alphabet) = core ∧
      s.dropWhile (· ∈ alphabet) = List.replicate p '=' := by
  have hcore : ∀ c ∈ core, decide (c ∈ alphabet) = true :=
    fun c hc => decide_eq_true (h.core_mem c hc)
  have hpad : decide ('=' ∈ alphabet) = false := decide_eq_false pad_notMem
  rw [h.eq, List.takeWhile_append_of_pos hcore, List.dropWhile_append_of_pos hcore]
  cases p with
  | zero => simp
  | succ p => simp [List.replicate_succ, hpad]

theorem shaped_of_base64Body
    {s : List Char}
    (hbody : base64Body s = true) (hlength : s.length % 4 = 0) :
    ∃ core p, Shaped s core p := by
  unfold base64Body at hbody
  simp only [Bool.and_eq_true, decide_eq_true_eq, List.all_eq_true] at hbody
  have hsplit := List.takeWhile_append_dropWhile (p := (· ∈ alphabet)) (l := s)
  have hrest := List.eq_replicate_of_mem hbody.2
  refine ⟨s.takeWhile (· ∈ alphabet), (s.dropWhile (· ∈ alphabet)).length, ?_, ?_,
    hbody.1.2, ?_⟩
  · rw [← hrest]
    exact hsplit.symm
  · intro c hc
    have hmem := List.mem_takeWhile_imp hc
    simpa using hmem
  · rw [← List.length_append, hsplit]
    exact hlength

theorem base64Body_of_shaped
    {s core : List Char} {p : ℕ}
    (h : Shaped s core p) (hne : s ≠ []) :
    base64Body s = true := by
  have hparts := core_of_shaped h
  have hcore : core ≠ [] := by
    intro hnil
    have hwhole := h.whole
    have hle := h.pad_le
    rw [hnil, List.length_nil] at hwhole
    have hp : p = 0 := by omega
    apply hne
    rw [h.eq, hnil, hp]
    rfl
  unfold base64Body
  rw [hparts.1, hparts.2]
  simp [hcore, h.pad_le]

theorem stripPadding_of_shaped
    {s core : List Char} {p : ℕ}
    (h : Shaped s core p) :
    stripPadding s = core := by
  have hcore : core.rdropWhile (· = '=') = core := by
    rw [List.rdropWhile_eq_self_iff]
    intro hne heq
    have hmem := h.core_mem _ (List.getLast_mem hne)
    rw [of_decide_eq_true heq] at hmem
    exact pad_notMem hmem
  rw [stripPadding, h.eq]
  clear h
  induction p with
  | zero => rw [List.replicate_zero, List.append_nil, hcore]
  | succ p ih =>
      rw [List.replicate_succ', ← List.append_assoc, List.rdropWhile_concat,
        if_pos (decide_eq_true rfl), ih]

theorem length_of_shaped
    {s core : List Char} {p : ℕ}
    (h : Shaped s core p) :
    s.length % 4 = 0 := by
  rw [h.eq, List.length_append, List.length_replicate]
  exact h.whole

/-- The decoder takes exactly the canonical encodings of at least 32 bytes. -/
theorem decodeBase64Secret_eq_ok_iff (text : List Char) (bytes : List UInt8) :
    decodeBase64Secret text = .ok bytes ↔
      compactText text = encode bytes ∧ minRefreshHmacSecretBytes ≤ bytes.length := by
  unfold decodeBase64Secret
  dsimp only
  constructor
  · intro h
    split at h
    · cases h
    · split at h
      · cases h
      · rename_i hshape
        rw [not_or, not_not, Bool.not_eq_false] at hshape
        split at h
        · cases h
        · rename_i hround
          split at h
          · cases h
          · rename_i hlong
            cases h
            refine ⟨?_, not_lt.mp hlong⟩
            by_cases hsame : encode (decode (compactText text)) = compactText text
            · exact hsame.symm
            · have hstrip : stripPadding (encode (decode (compactText text))) =
                  stripPadding (compactText text) := by
                by_contra hne
                exact hround ⟨hsame, hne⟩
              rcases shaped_of_base64Body hshape.2 hshape.1 with ⟨core, p, hcompact⟩
              rcases encode_shaped (decode (compactText text)) with ⟨core', p', hencoded⟩
              rw [stripPadding_of_shaped hencoded, stripPadding_of_shaped hcompact] at hstrip
              rw [hstrip] at hencoded
              exact hcompact.eq_of_core hencoded
  · intro h
    rcases encode_shaped bytes with ⟨core, p, hshaped⟩
    have hne : encode bytes ≠ [] := by
      intro hnil
      have hback := decode_encode bytes
      rw [hnil] at hback
      have hlong := h.2
      rw [← hback] at hlong
      exact absurd hlong (by decide)
    have hbody := base64Body_of_shaped hshaped hne
    have hlength := length_of_shaped hshaped
    rw [h.1, if_neg hne, if_neg (by simp [hbody, hlength]), decode_encode,
      if_neg (by simp), if_neg (not_lt.mpr h.2)]
    rfl

end Untangled.RefreshSecret
