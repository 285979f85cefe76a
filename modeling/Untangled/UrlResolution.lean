import Mathlib.Tactic

/-!
# Resolving a reference against an https URL

The states of the basic URL parser that decide scheme, host and port.  Parsing of
hosts and of inputs that start with a letter are parameters; the states of path,
query and fragment never fail and change none of the three.
-/

namespace UrlResolution

structure Url (η : Type) where
  scheme : String
  host : η
  port : Option ℕ
  deriving DecidableEq

/-- An https origin; its port is left out if it is the default one. -/
def httpsOrigin {η : Type} (host : η) (port : Option ℕ) : Url η where
  scheme := "https"
  host := host
  port := port

/-- A host parser, and the scheme state. -/
structure Rules (η : Type) where
  parseHost : List Char → Option η
  schemeState : Url η → List Char → Option (Url η)

/-! ## Cleaning the input -/

def isC0OrSpace (c : Char) : Bool := c.toNat ≤ 0x20

def isTabOrNewline (c : Char) : Bool := c = '\t' || c = '\n' || c = '\r'

/-- Control characters and spaces go at both ends, tabs and newlines everywhere. -/
def clean (input : List Char) : List Char :=
  ((input.dropWhile isC0OrSpace).reverse.dropWhile isC0OrSpace).reverse.filter
    fun c => !isTabOrNewline c

/-! ## States -/

/-- In special schemes a backslash is a slash. -/
def isSlash (c : Char) : Bool := c = '/' || c = '\\'

def endsAuthority (c : Char) : Bool := isSlash c || c = '?' || c = '#'

/-- The host and, after a colon outside brackets, the port. -/
def hostState : Bool → List Char → List Char × Option (List Char)
  | _, [] => ([], none)
  | insideBrackets, c :: text =>
      if c = ':' && !insideBrackets then ([], some text)
      else
        let inside := if c = '[' then true else if c = ']' then false else insideBrackets
        (c :: (hostState inside text).1, (hostState inside text).2)

def digitsValue (digits : List Char) : ℕ :=
  digits.foldl (fun n c => 10 * n + (c.toNat - 48)) 0

/-- The port; the default one is left out. -/
def portState : Option (List Char) → Option (Option ℕ)
  | none => some none
  | some digits =>
      if digits = [] then some none
      else if !digits.all Char.isDigit || 65535 < digitsValue digits then none
      else if digitsValue digits = 443 then some none
      else some (some (digitsValue digits))

variable {η : Type} (R : Rules η)

/-- Host and port of an authority; what stands before its last `@` are credentials. -/
def authorityState (text : List Char) : Option (η × Option ℕ) :=
  let authority := text.takeWhile fun c => !endsAuthority c
  let afterCredentials := (authority.reverse.takeWhile (· ≠ '@')).reverse
  let (host, port) := hostState false afterCredentials
  if host = [] then none
  else (R.parseHost host).bind fun h => (portState port).map fun p => (h, p)

/-- What follows two or more slashes at the start. -/
def afterSlashes : List Char → Option (List Char)
  | c :: d :: rest => if isSlash c && isSlash d then some (rest.dropWhile isSlash) else none
  | _ => none

/-- The states from the first slash on. -/
def relativeSlashState (base : Url η) (text : List Char) : Option (Url η) :=
  match afterSlashes text with
  | some rest =>
      (authorityState R rest).map fun (host, port) =>
        { scheme := base.scheme, host := host, port := port }
  | none => some base

/-- The URL of an input, as far as scheme, host and port go. -/
def resolve (base : Url η) (input : List Char) : Option (Url η) :=
  match clean input with
  | [] => some base
  | c :: rest =>
      if c.isAlpha then R.schemeState base (c :: rest)
      else if isSlash c then relativeSlashState R base (c :: rest)
      else some base

/-! ## Inputs that start with a slash -/

variable {R} {base : Url η} {rest : List Char}

theorem clean_slash (rest : List Char) :
    ∃ tail, clean ('/' :: rest) = '/' :: tail := by
  have hfirst : ('/' :: rest).dropWhile isC0OrSpace = '/' :: rest :=
    List.dropWhile_cons_of_neg (by decide)
  have hlast : ∃ kept, ((rest.reverse ++ ['/']).dropWhile isC0OrSpace) = kept ++ ['/'] := by
    generalize rest.reverse = front
    induction front with
    | nil => exact ⟨[], by decide⟩
    | cons c front ih =>
        by_cases hc : isC0OrSpace c = true
        · rw [List.cons_append, List.dropWhile_cons_of_pos hc]
          exact ih
        · exact ⟨c :: front, by rw [List.cons_append, List.dropWhile_cons_of_neg hc]⟩
  rcases hlast with ⟨kept, hkept⟩
  refine ⟨kept.reverse.filter fun c => !isTabOrNewline c, ?_⟩
  rw [clean, hfirst, List.reverse_cons, hkept, List.reverse_append, List.reverse_singleton,
    List.singleton_append, List.filter_cons_of_pos (by decide)]

theorem resolve_slash (base : Url η) (rest : List Char) :
    resolve R base ('/' :: rest) = relativeSlashState R base (clean ('/' :: rest)) := by
  rcases clean_slash rest with ⟨tail, htail⟩
  rw [resolve, htail]
  rfl

/-- The resolved URL keeps the host unless an authority with another one follows. -/
theorem resolve_slash_keeps_iff (base : Url η) (rest : List Char) :
    (∀ url, resolve R base ('/' :: rest) = some url →
        url.scheme = base.scheme ∧ url.host = base.host ∧ url.port = base.port) ↔
      ∀ text, afterSlashes (clean ('/' :: rest)) = some text →
        ∀ site, authorityState R text = some site → site = (base.host, base.port) := by
  rw [resolve_slash, relativeSlashState]
  cases hslashes : afterSlashes (clean ('/' :: rest)) with
  | none => simp
  | some text =>
      cases hsite : authorityState R text with
      | none => simp [hsite]
      | some site =>
          rcases site with ⟨host, port⟩
          simp [hsite, Prod.ext_iff]

end UrlResolution
