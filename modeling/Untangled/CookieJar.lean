import Mathlib.Data.List.DropRight
import Mathlib.Data.List.Sort
import Untangled.JsStrings

/-!
# The cookie jar of a browser

What a browser keeps of the `Set-Cookie` headers of one host, and what it sends
back.  A cookie is kept under its name and its path.  A later cookie under both
takes the place of the earlier one, and a request carries the cookies whose path
is a prefix of its own, those of longer paths first.
-/

namespace CookieJar

abbrev Text := List Char

structure Cookie where
  name : Text
  value : Text
  path : Text
  httpOnly : Bool
  secure : Bool
  /-- Without an instant the cookie lasts as long as the browser runs. -/
  expiresAt : Option ℤ
  deriving DecidableEq

abbrev Jar := List Cookie

/-! ## Receiving -/

def isBlank (c : Char) : Bool := c = ' ' || c = '\t'

def strip (s : Text) : Text := (s.dropWhile isBlank).rdropWhile isBlank

/-- The texts before and after the first `=`. -/
def nameOf (part : Text) : Text := strip (part.takeWhile (· ≠ '='))

def valueOf (part : Text) : Text := strip ((part.dropWhile (· ≠ '=')).drop 1)

structure Attributes where
  path : Option Text
  maxAge : Option ℤ
  httpOnly : Bool
  secure : Bool
  deriving DecidableEq

/-- The last attribute of a name counts.  Attributes that are not known here
are passed over. -/
def Attributes.read (a : Attributes) (part : Text) : Attributes :=
  let name := (nameOf part).map Char.toLower
  let value := valueOf part
  if name = "path".toList then
    { a with path := if value.head? = some '/' then some value else none }
  else if name = "max-age".toList then
    match Untangled.parseNumber (String.ofList value) with
    | none => a
    | some seconds => { a with maxAge := some seconds }
  else if name = "httponly".toList then { a with httpOnly := true }
  else if name = "secure".toList then { a with secure := true }
  else a

/-- The cookie of a `Set-Cookie` header that is received at `now`.  A lifetime
that is not positive is over when it starts. -/
def parseSetCookie (now : ℤ) (defaultPath header : Text) : Option Cookie :=
  match header.splitOn ';' with
  | [] => none
  | pair :: parts =>
      if '=' ∉ pair ∨ nameOf pair = [] then none
      else
        let a := parts.foldl Attributes.read ⟨none, none, false, false⟩
        some
          { name := nameOf pair
            value := valueOf pair
            path := a.path.getD defaultPath
            httpOnly := a.httpOnly
            secure := a.secure
            expiresAt := a.maxAge.map fun seconds => now + seconds * 1000 }

def SameKey (c d : Cookie) : Prop := c.name = d.name ∧ c.path = d.path

instance (c d : Cookie) : Decidable (SameKey c d) :=
  inferInstanceAs (Decidable (_ ∧ _))

/-- A cookie that is replaced keeps its place in the order of creation. -/
def Jar.put (jar : Jar) (c : Cookie) : Jar :=
  if jar.any fun d => SameKey c d then
    jar.map fun d => if SameKey c d then c else d
  else jar ++ [c]

def Jar.receive (jar : Jar) (now : ℤ) (defaultPath header : Text) : Jar :=
  match parseSetCookie now defaultPath header with
  | none => jar
  | some c => jar.put c

/-! ## Sending -/

def pathMatches (cookiePath requestPath : Text) : Bool :=
  requestPath = cookiePath ||
    (cookiePath.isPrefixOf requestPath &&
      (cookiePath.getLast? = some '/' || requestPath[cookiePath.length]? = some '/'))

structure Target where
  https : Bool
  path : Text
  sentAt : ℤ

def Cookie.live (c : Cookie) (t : ℤ) : Bool :=
  match c.expiresAt with
  | none => true
  | some instant => t < instant

def Cookie.goesTo (c : Cookie) (target : Target) : Bool :=
  pathMatches c.path target.path && (!c.secure || target.https) && c.live target.sentAt

/-- Longer paths first, and of one length the earlier created. -/
def Jar.sent (jar : Jar) (target : Target) : List Cookie :=
  (jar.filter fun c => c.goesTo target).mergeSort
    fun c d => d.path.length ≤ c.path.length

def Cookie.pair (c : Cookie) : Text := c.name ++ '=' :: c.value

def joined : List Text → Text
  | [] => []
  | part :: parts => part ++ parts.flatMap fun q => ';' :: ' ' :: q

/-- The `Cookie` header of a request. -/
def Jar.header (jar : Jar) (target : Target) : Text :=
  joined ((jar.sent target).map Cookie.pair)

/-- `document.cookie` on a page. -/
def Jar.documentCookie (jar : Jar) (target : Target) : Text :=
  joined (((jar.sent target).filter fun c => !c.httpOnly).map Cookie.pair)

/-! ## Texts that come back -/

theorem strip_of_ends
    {s : Text}
    (hhead : ∀ c ∈ s.head?, isBlank c = false)
    (hlast : ∀ c ∈ s.getLast?, isBlank c = false) :
    strip s = s := by
  have hdrop : s.dropWhile isBlank = s := by
    cases s with
    | nil => rfl
    | cons c s => rw [List.dropWhile_cons, hhead c rfl, if_neg Bool.false_ne_true]
  rw [strip, hdrop, List.rdropWhile_eq_self_iff]
  intro hne hblank
  rw [hlast _ (List.getLast?_eq_some_getLast hne)] at hblank
  cases hblank

theorem strip_space (s : Text) : strip (' ' :: s) = strip s := by
  have hspace : isBlank ' ' = true := by decide
  rw [strip, strip, List.dropWhile_cons, hspace, if_pos rfl]

theorem takeWhile_pair
    {name : Text} (value : Text)
    (hname : '=' ∉ name) :
    (name ++ '=' :: value).takeWhile (· ≠ '=') = name := by
  have hall : ∀ c ∈ name, decide (c ≠ '=') = true := by
    intro c hc
    have hne : c ≠ '=' := by
      intro h
      exact hname (h ▸ hc)
    simp [hne]
  rw [List.takeWhile_append_of_pos hall, List.takeWhile_cons]
  simp

theorem dropWhile_pair
    {name : Text} (value : Text)
    (hname : '=' ∉ name) :
    (name ++ '=' :: value).dropWhile (· ≠ '=') = '=' :: value := by
  have hall : ∀ c ∈ name, decide (c ≠ '=') = true := by
    intro c hc
    have hne : c ≠ '=' := by
      intro h
      exact hname (h ▸ hc)
    simp [hne]
  rw [List.dropWhile_append_of_pos hall, List.dropWhile_cons]
  simp

theorem nameOf_pair
    {name : Text} (value : Text)
    (hname : '=' ∉ name) :
    nameOf (name ++ '=' :: value) = strip name := by
  rw [nameOf, takeWhile_pair value hname]

theorem valueOf_pair
    {name : Text} (value : Text)
    (hname : '=' ∉ name) :
    valueOf (name ++ '=' :: value) = strip value := by
  rw [valueOf, dropWhile_pair value hname]
  rfl

theorem nameOf_space (part : Text) : nameOf (' ' :: part) = nameOf part := by
  rw [nameOf, nameOf, List.takeWhile_cons, if_pos (by decide), strip_space]

theorem valueOf_space (part : Text) : valueOf (' ' :: part) = valueOf part := by
  rw [valueOf, valueOf, List.dropWhile_cons, if_pos (by decide)]

theorem Attributes.read_space (a : Attributes) (part : Text) :
    a.read (' ' :: part) = a.read part := by
  simp only [Attributes.read, nameOf_space, valueOf_space]

theorem splitOn_joined
    {part : Text} {parts : List Text}
    (hparts : ∀ q ∈ part :: parts, ';' ∉ q) :
    (joined (part :: parts)).splitOn ';' = part :: parts.map (' ' :: ·) := by
  have hjoined : joined (part :: parts) =
      [';'].intercalate (part :: parts.map (' ' :: ·)) := by
    clear hparts
    induction parts generalizing part with
    | nil => simp [joined]
    | cons q parts ih =>
        have hrest := @ih (' ' :: q)
        simp only [joined, List.cons_append] at hrest
        rw [List.map_cons, List.intercalate_cons_cons, ← hrest]
        simp [joined]
  rw [hjoined, List.splitOn_intercalate]
  · intro q hq
    cases hq with
    | head => exact hparts part List.mem_cons_self
    | tail _ hq =>
        obtain ⟨r, hr, rfl⟩ := List.mem_map.mp hq
        have hno := hparts r (List.mem_cons_of_mem part hr)
        simp [hno]
  · exact List.cons_ne_nil _ _

theorem parseSetCookie_joined
    {name value : Text} {parts : List Text} (now : ℤ) (defaultPath : Text)
    (hname : '=' ∉ name) (hparts : ∀ q ∈ (name ++ '=' :: value) :: parts, ';' ∉ q)
    (hne : strip name ≠ []) :
    parseSetCookie now defaultPath (joined ((name ++ '=' :: value) :: parts)) =
      let a := parts.foldl Attributes.read ⟨none, none, false, false⟩
      some
        { name := strip name
          value := strip value
          path := a.path.getD defaultPath
          httpOnly := a.httpOnly
          secure := a.secure
          expiresAt := a.maxAge.map fun seconds => now + seconds * 1000 } := by
  have hspaces : ∀ (qs : List Text) (a : Attributes),
      (qs.map (' ' :: ·)).foldl Attributes.read a = qs.foldl Attributes.read a := by
    intro qs a
    simp only [List.foldl_map, Attributes.read_space]
  have hpresent : ¬ ('=' ∉ name ++ '=' :: value ∨ strip name = []) := by
    simp [hne]
  unfold parseSetCookie
  rw [splitOn_joined hparts]
  dsimp only
  rw [nameOf_pair value hname, valueOf_pair value hname, hspaces, if_neg hpresent]

/-! ## What is found under a name -/

section Found

variable {jar : Jar} {p : Cookie → Bool} {c : Cookie}

theorem filter_replaced
    (hp : ∀ d, SameKey c d → p c = p d) :
    (jar.map fun d => if SameKey c d then c else d).filter p =
      (jar.filter p).map fun d => if SameKey c d then c else d := by
  have hsame : (p ∘ fun d => if SameKey c d then c else d) = p := by
    funext d
    dsimp only [Function.comp_apply]
    split
    · rename_i h
      exact hp d h
    · rfl
  rw [List.filter_map, hsame]

theorem Jar.filter_put_other
    (hp : ∀ d, SameKey c d → p c = p d) (hc : p c = false) :
    (jar.put c).filter p = jar.filter p := by
  unfold Jar.put
  split
  · have hkept : ∀ d ∈ jar.filter p, (if SameKey c d then c else d) = id d := by
      intro d hd
      have hpd := (List.mem_filter.mp hd).2
      rw [if_neg, id_eq]
      intro hsame
      rw [← hp d hsame, hc] at hpd
      cases hpd
    rw [filter_replaced hp, List.map_congr_left hkept, List.map_id]
  · rw [List.filter_append, List.filter_cons, hc]
    simp

/-- At most one cookie was found, and the new one takes its place. -/
theorem Jar.filter_put_same
    {found : Option Cookie}
    (hp : ∀ d, SameKey c d → p c = p d) (hc : p c = true)
    (hfound : jar.filter p = found.toList) (hsame : ∀ d ∈ found, SameKey c d) :
    (jar.put c).filter p = [c] := by
  unfold Jar.put
  cases found with
  | none =>
      have hnone : (jar.any fun d => SameKey c d) = false := by
        rw [List.any_eq_false]
        intro d hd hkey
        have hpd : p d = true := (hp d (of_decide_eq_true hkey)).symm.trans hc
        have hmem := List.mem_filter.mpr ⟨hd, hpd⟩
        rw [hfound] at hmem
        cases hmem
      rw [hnone, if_neg Bool.false_ne_true, List.filter_append, hfound]
      simp [hc]
  | some d =>
      have hmem : d ∈ jar.filter p := by
        rw [hfound]
        exact List.mem_cons_self
      have hany : (jar.any fun d => SameKey c d) = true :=
        List.any_eq_true.mpr
          ⟨d, (List.mem_filter.mp hmem).1, decide_eq_true (hsame d rfl)⟩
      rw [hany, if_pos rfl, filter_replaced hp, hfound, Option.toList_some, List.map_singleton,
        if_pos (hsame d rfl)]

theorem Jar.mem_put
    {d : Cookie}
    (hd : d ∈ jar.put c) :
    d = c ∨ d ∈ jar := by
  unfold Jar.put at hd
  split at hd
  · obtain ⟨e, he, hde⟩ := List.mem_map.mp hd
    split at hde
    · exact .inl hde.symm
    · exact .inr (hde ▸ he)
  · rcases List.mem_append.mp hd with hd | hd
    · exact .inr hd
    · exact .inl (List.mem_singleton.mp hd)

theorem Jar.mem_sent
    {target : Target} {d : Cookie}
    (hd : d ∈ jar.sent target) :
    d ∈ jar :=
  (List.mem_filter.mp (List.mem_mergeSort.mp hd)).1

theorem Jar.filter_sent
    {found : Option Cookie} (target : Target)
    (hfound : jar.filter p = found.toList) :
    (jar.sent target).filter p = (found.filter fun d => d.goesTo target).toList := by
  have hperm : ((jar.sent target).filter p).Perm
      ((jar.filter p).filter fun d => d.goesTo target) := by
    rw [List.filter_comm]
    exact (List.mergeSort_perm _ _).filter p
  rw [hfound] at hperm
  cases found with
  | none => exact List.perm_nil.mp hperm
  | some d =>
      simp only [Option.toList_some, List.filter_cons, List.filter_nil] at hperm
      cases hgoes : d.goesTo target with
      | true =>
          rw [hgoes, if_pos rfl] at hperm
          rw [Option.filter_some, if_pos hgoes]
          exact List.perm_singleton.mp hperm
      | false =>
          rw [hgoes, if_neg Bool.false_ne_true] at hperm
          rw [Option.filter_some, hgoes]
          exact List.perm_nil.mp hperm

end Found

/-! ## What a host can have named -/

/-- The texts of a cookie that a `Set-Cookie` header can leave. -/
structure Cookie.WellFormed (c : Cookie) : Prop where
  name_ne : c.name ≠ []
  name_semicolon : ';' ∉ c.name
  name_equals : '=' ∉ c.name
  value_semicolon : ';' ∉ c.value

theorem mem_of_mem_strip
    {s : Text} {c : Char}
    (hc : c ∈ strip s) :
    c ∈ s :=
  (List.dropWhile_suffix _).mem ((List.rdropWhile_prefix _ _).mem hc)

theorem not_mem_of_mem_splitOn
    {s part : Text} {x : Char}
    (hpart : part ∈ s.splitOn x) :
    x ∉ part := by
  induction s generalizing part with
  | nil =>
      rw [List.splitOn_nil, List.mem_singleton] at hpart
      rw [hpart]
      exact List.not_mem_nil
  | cons c s ih =>
      rw [List.splitOn_cons_eq_if_modifyHead] at hpart
      split at hpart
      · cases hpart with
        | head => exact List.not_mem_nil
        | tail _ hrest => exact ih hrest
      · rename_i hc
        cases hsplit : s.splitOn x with
        | nil => exact absurd hsplit (List.splitOn_ne_nil x s)
        | cons q rest =>
            rw [hsplit, List.modifyHead_cons] at hpart
            rw [hsplit] at ih
            cases hpart with
            | head =>
                intro hx
                cases hx with
                | head => exact hc (beq_self_eq_true x)
                | tail _ hx => exact ih List.mem_cons_self hx
            | tail _ hrest => exact ih (List.mem_cons_of_mem q hrest)

theorem wellFormed_of_parse
    {now : ℤ} {defaultPath header : Text} {c : Cookie}
    (hparse : parseSetCookie now defaultPath header = some c) :
    c.WellFormed := by
  unfold parseSetCookie at hparse
  split at hparse
  · cases hparse
  · rename_i pair parts hsplit
    split at hparse
    · cases hparse
    · rename_i hpair
      have hno : ';' ∉ pair := by
        apply @not_mem_of_mem_splitOn header
        rw [hsplit]
        exact List.mem_cons_self
      cases hparse
      constructor
      · exact fun h => hpair (.inr h)
      · exact fun h => hno ((List.takeWhile_prefix _).mem (mem_of_mem_strip h))
      · intro h
        have hall := List.mem_takeWhile_imp (mem_of_mem_strip h)
        simp at hall
      · intro h
        exact hno ((List.dropWhile_suffix _).mem (List.mem_of_mem_drop (mem_of_mem_strip h)))

theorem Jar.forall_receive
    {jar : Jar} (now : ℤ) (defaultPath header : Text)
    (hjar : ∀ c ∈ jar, c.WellFormed) :
    ∀ c ∈ jar.receive now defaultPath header, c.WellFormed := by
  intro c hc
  unfold Jar.receive at hc
  split at hc
  · exact hjar c hc
  · rename_i d hparse
    cases mem_put hc with
    | inl h =>
        rw [h]
        exact wellFormed_of_parse hparse
    | inr h => exact hjar c h

end CookieJar
