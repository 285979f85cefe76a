import Untangled.CookieJar
import Untangled.RefreshCookies
import Untangled.TimeEntry

/-!
# The cookies of a session on the wire

`cookies.ts` of the auth service writes the three cookies of a session as
`Set-Cookie` headers and reads them back from the `Cookie` header of a request.
`csrf_browser.ts` reads the one that scripts may see from `document.cookie`, and
`session.server.ts` writes and reads the same cookies for the pages.
-/

namespace Untangled.SessionCookies

open CookieJar Datetime

/-! ## Texts of the source -/

def csrfCookieName : Text := "__untangled_csrf".toList

def accessCookieName : Text := "__untangled_access".toList

def refreshCookieName : Text := "__untangled_refresh".toList

def accessCookiePath : Text := "/".toList

def refreshCookiePath : Text := "/api/v2/auth/refresh".toList

/-! ## Reading -/

/-- What a part of a `Cookie` header names, and its value. -/
def cookiePart (part : Text) : Option (Text × Text) :=
  let cut := part.idxOf '='
  -- `indexOf` is -1 where there is no `=`
  if cut = part.length ∨ cut = 0 then none
  else some (trim (part.take cut), trim (part.drop (cut + 1)))

def readPart (out : Text → Option Text) (part : Text) : Text → Option Text :=
  match cookiePart part with
  | none => out
  | some (name, value) => if name = [] then out else Function.update out name (some value)

def parseCookieHeader (header : Option Text) : Text → Option Text :=
  match header with
  | none => fun _ => none
  | some header =>
      if header = [] then fun _ => none
      else (header.splitOn ';').foldl readPart fun _ => none

def readCsrfPart (found : Text) (part : Text) : Text :=
  match cookiePart part with
  | none => found
  | some (name, value) => if name = csrfCookieName then value else found

def csrfTokenFromCookieHeader (header : Text) : Text :=
  (header.splitOn ';').foldl readCsrfPart []

/-! ## Writing -/

structure CookieAttrs where
  httpOnly : Bool
  secure : Bool
  path : Text
  maxAge : Option ℤ

def pathPart (path : Text) : Text := "Path=".toList ++ path

def sameSitePart : Text := "SameSite=Lax".toList

def httpOnlyPart : Text := "HttpOnly".toList

def securePart : Text := "Secure".toList

def maxAgePart (seconds : ℤ) : Text := "Max-Age=".toList ++ (numberText seconds).toList

def flagParts (flag : Bool) (part : Text) : List Text := if flag then [part] else []

def ageParts (maxAge : Option ℤ) : List Text := (maxAge.map maxAgePart).toList

def serializeCookie (name value : Text) (attrs : CookieAttrs) : Text :=
  joined ((name ++ '=' :: value) :: pathPart attrs.path :: sameSitePart ::
    (flagParts attrs.httpOnly httpOnlyPart ++ (flagParts attrs.secure securePart ++
      ageParts attrs.maxAge)))

/-- `serialize_cookie` of `session.server.ts`, which gives the lifetime before
the flags. -/
def ssrSerializeCookie (name value : Text) (attrs : CookieAttrs) : Text :=
  joined ((name ++ '=' :: value) :: pathPart attrs.path :: sameSitePart ::
    (ageParts attrs.maxAge ++ (flagParts attrs.httpOnly httpOnlyPart ++
      flagParts attrs.secure securePart)))

def csrfCookie (value : Text) (secure : Bool) : Text :=
  serializeCookie csrfCookieName value
    { httpOnly := false, secure := secure, path := accessCookiePath, maxAge := none }

def accessCookie (value : Text) (secure : Bool) (maxAge : ℤ) : Text :=
  serializeCookie accessCookieName value
    { httpOnly := true, secure := secure, path := accessCookiePath, maxAge := some maxAge }

def refreshCookie (value : Text) (secure : Bool) (maxAge : ℤ) : Text :=
  serializeCookie refreshCookieName value
    { httpOnly := true, secure := secure, path := refreshCookiePath, maxAge := some maxAge }

def expireAccessCookie (secure : Bool) : Text :=
  serializeCookie accessCookieName []
    { httpOnly := true, secure := secure, path := accessCookiePath, maxAge := some 0 }

def expireRefreshCookie (secure : Bool) : Text :=
  serializeCookie refreshCookieName []
    { httpOnly := true, secure := secure, path := refreshCookiePath, maxAge := some 0 }

/-- `destroy_session` and `expire_refresh_cookie` of `session.server.ts` -/
def destroySession (secure : Bool) : Text :=
  ssrSerializeCookie accessCookieName []
    { httpOnly := true, secure := secure, path := accessCookiePath, maxAge := some 0 }

def ssrExpireRefreshCookie (secure : Bool) : Text :=
  ssrSerializeCookie refreshCookieName []
    { httpOnly := true, secure := secure, path := refreshCookiePath, maxAge := some 0 }

/-! ## What the browser reads of a header -/

/-- A value that survives the wire. -/
structure Carried (value : Text) : Prop where
  noSemicolon : ';' ∉ value
  trimmed : trim value = value

theorem jsWhitespace_of_isBlank
    {c : Char}
    (hc : isBlank c = true) :
    Auth.jsWhitespace c = true := by
  simp only [isBlank, Bool.or_eq_true, decide_eq_true_eq] at hc
  cases hc with
  | inl h =>
      rw [h]
      decide
  | inr h =>
      rw [h]
      decide

theorem strip_of_trimmed
    {s : Text}
    (hs : trim s = s) :
    strip s = s := by
  have hnot : ∀ c, Auth.jsWhitespace c = false → isBlank c = false := by
    intro c hc
    cases hblank : isBlank c with
    | false => rfl
    | true => rw [jsWhitespace_of_isBlank hblank] at hc; cases hc
  apply strip_of_ends
  · intro c hc
    exact hnot c (head_trim s c (hs.symm ▸ hc))
  · intro c hc
    exact hnot c (last_trim s c (hs.symm ▸ hc))

theorem read_sameSite (a : Attributes) : a.read sameSitePart = a := by
  rfl

theorem read_httpOnly (a : Attributes) (flag : Bool) :
    (flagParts flag httpOnlyPart).foldl Attributes.read a =
      { a with httpOnly := a.httpOnly || flag } := by
  cases flag with
  | false => simp [flagParts]
  | true =>
      rw [Bool.or_true]
      rfl

theorem read_secure (a : Attributes) (flag : Bool) :
    (flagParts flag securePart).foldl Attributes.read a =
      { a with secure := a.secure || flag } := by
  cases flag with
  | false => simp [flagParts]
  | true =>
      rw [Bool.or_true]
      rfl

theorem read_path
    {path : Text} (a : Attributes)
    (hpath : strip path = path) (hhead : path.head? = some '/') :
    a.read (pathPart path) = { a with path := some path } := by
  have hname : nameOf (pathPart path) = "Path".toList := by
    have h := @nameOf_pair "Path".toList path (by decide)
    exact h
  have hvalue : valueOf (pathPart path) = path := by
    have h := @valueOf_pair "Path".toList path (by decide)
    exact h.trans hpath
  simp only [Attributes.read, hname, hvalue, hhead]
  rfl

theorem trim_numberText (n : ℤ) : trim (numberText n).toList = (numberText n).toList := by
  apply trim_of_none
  intro c hc
  rcases lt_or_ge n 0 with hneg | hnonneg
  · rw [numberText_toList_neg hneg] at hc
    cases hc with
    | head => decide
    | tail _ hc =>
        exact not_jsWhitespace_of_isDigit
          (Nat.isDigit_of_mem_toDigits (by decide) (by decide) hc)
  · exact not_jsWhitespace_of_isDigit (isDigit_of_mem_numberText hnonneg hc)

theorem read_maxAge (a : Attributes) (seconds : ℤ) :
    a.read (maxAgePart seconds) = { a with maxAge := some seconds } := by
  have hstrip := strip_of_trimmed (trim_numberText seconds)
  have hname : nameOf (maxAgePart seconds) = "Max-Age".toList := by
    have h := @nameOf_pair "Max-Age".toList (numberText seconds).toList (by decide)
    exact h
  have hvalue : valueOf (maxAgePart seconds) = (numberText seconds).toList := by
    have h := @valueOf_pair "Max-Age".toList (numberText seconds).toList (by decide)
    exact h.trans hstrip
  simp only [Attributes.read, hname, hvalue, String.ofList_toList, parseNumber_numberText]
  rfl

/-- A name and a path that survive the wire. -/
structure Written (name path : Text) : Prop where
  name_ne : name ≠ []
  name_equals : '=' ∉ name
  name_semicolon : ';' ∉ name
  name_trimmed : trim name = name
  path_semicolon : ';' ∉ path
  path_trimmed : trim path = path
  path_head : path.head? = some '/'

theorem written_access : Written accessCookieName accessCookiePath := by
  constructor <;> decide

theorem written_csrf : Written csrfCookieName accessCookiePath := by
  constructor <;> decide

theorem written_refresh : Written refreshCookieName refreshCookiePath := by
  constructor <;> decide

/-- The cookie of `serialize_cookie`, received at `now`. -/
def received (now : ℤ) (name value : Text) (attrs : CookieAttrs) : Cookie where
  name := name
  value := value
  path := attrs.path
  httpOnly := attrs.httpOnly
  secure := attrs.secure
  expiresAt := attrs.maxAge.map fun seconds => now + seconds * 1000

section Serialized

variable {name value : Text} {attrs : CookieAttrs}

theorem read_ages (a : Attributes) (maxAge : Option ℤ) :
    (ageParts maxAge).foldl Attributes.read a =
      { a with maxAge := maxAge.or a.maxAge } := by
  cases maxAge with
  | none => rfl
  | some seconds =>
      rw [ageParts, Option.map_some, Option.toList_some, List.foldl_cons, List.foldl_nil,
        read_maxAge, Option.some_or]

theorem semicolon_notMem_maxAge (seconds : ℤ) : ';' ∉ maxAgePart seconds := by
  unfold maxAgePart
  rw [List.mem_append, not_or]
  constructor
  · decide
  · intro h
    rcases lt_or_ge seconds 0 with hneg | hnonneg
    · rw [numberText_toList_neg hneg] at h
      cases h with
      | tail _ h =>
          have hdigit := Nat.isDigit_of_mem_toDigits (by decide) (by decide) h
          exact absurd hdigit (by decide)
    · exact absurd (isDigit_of_mem_numberText hnonneg h) (by decide)

/-- The parts of a serialized cookie behind the path. -/
def AttributePart (part : Text) : Prop :=
  part = sameSitePart ∨ part = httpOnlyPart ∨ part = securePart ∨
    ∃ seconds, part = maxAgePart seconds

theorem attributePart_of_flag
    {flag : Bool} {part q : Text}
    (hpart : AttributePart part) (hq : q ∈ flagParts flag part) :
    AttributePart q := by
  cases flag with
  | false => cases hq
  | true =>
      rw [List.mem_singleton.mp hq]
      exact hpart

theorem attributePart_of_age
    {maxAge : Option ℤ} {q : Text}
    (hq : q ∈ ageParts maxAge) :
    AttributePart q := by
  cases maxAge with
  | none => cases hq
  | some seconds =>
      rw [List.mem_singleton.mp hq]
      exact .inr (.inr (.inr ⟨seconds, rfl⟩))

theorem AttributePart.noSemicolon
    {part : Text}
    (hpart : AttributePart part) :
    ';' ∉ part := by
  rcases hpart with rfl | rfl | rfl | ⟨seconds, rfl⟩
  · decide
  · decide
  · decide
  · exact semicolon_notMem_maxAge seconds

/-- The order of the attributes does not matter to the browser. -/
theorem parse_parts
    {parts : List Text} (now : ℤ) (defaultPath : Text)
    (hwritten : Written name attrs.path) (hvalue : Carried value)
    (hparts : ∀ q ∈ parts, AttributePart q)
    (hread : parts.foldl Attributes.read ⟨some attrs.path, none, false, false⟩ =
      ⟨some attrs.path, attrs.maxAge, attrs.httpOnly, attrs.secure⟩) :
    parseSetCookie now defaultPath
        (joined ((name ++ '=' :: value) :: pathPart attrs.path :: parts)) =
      some (received now name value attrs) := by
  have hno : ∀ q ∈ (name ++ '=' :: value) :: pathPart attrs.path :: parts, ';' ∉ q := by
    intro q hq
    rcases List.mem_cons.mp hq with rfl | hq
    · simp [hwritten.name_semicolon, hvalue.noSemicolon]
    · rcases List.mem_cons.mp hq with rfl | hq
      · simp [pathPart, hwritten.path_semicolon]
      · exact (hparts q hq).noSemicolon
  have hname : strip name = name := strip_of_trimmed hwritten.name_trimmed
  have hne : strip name ≠ [] := by
    rw [hname]
    exact hwritten.name_ne
  have hparse := parseSetCookie_joined now defaultPath hwritten.name_equals hno hne
  rw [hname, strip_of_trimmed hvalue.trimmed, List.foldl_cons,
    read_path _ (strip_of_trimmed hwritten.path_trimmed) hwritten.path_head, hread] at hparse
  exact hparse

theorem parse_serializeCookie
    (now : ℤ) (defaultPath : Text)
    (hwritten : Written name attrs.path) (hvalue : Carried value) :
    parseSetCookie now defaultPath (serializeCookie name value attrs) =
      some (received now name value attrs) := by
  apply parse_parts now defaultPath hwritten hvalue
  · intro q hq
    rcases List.mem_cons.mp hq with rfl | hq
    · exact .inl rfl
    · rcases List.mem_append.mp hq with hq | hq
      · exact attributePart_of_flag (.inr (.inl rfl)) hq
      · rcases List.mem_append.mp hq with hq | hq
        · exact attributePart_of_flag (.inr (.inr (.inl rfl))) hq
        · exact attributePart_of_age hq
  · rw [List.foldl_cons, read_sameSite, List.foldl_append, List.foldl_append, read_httpOnly,
      read_secure, read_ages]
    simp

theorem parse_ssrSerializeCookie
    (now : ℤ) (defaultPath : Text)
    (hwritten : Written name attrs.path) (hvalue : Carried value) :
    parseSetCookie now defaultPath (ssrSerializeCookie name value attrs) =
      some (received now name value attrs) := by
  apply parse_parts now defaultPath hwritten hvalue
  · intro q hq
    rcases List.mem_cons.mp hq with rfl | hq
    · exact .inl rfl
    · rcases List.mem_append.mp hq with hq | hq
      · exact attributePart_of_age hq
      · rcases List.mem_append.mp hq with hq | hq
        · exact attributePart_of_flag (.inr (.inl rfl)) hq
        · exact attributePart_of_flag (.inr (.inr (.inl rfl))) hq
  · rw [List.foldl_cons, read_sameSite, List.foldl_append, List.foldl_append, read_ages,
      read_httpOnly, read_secure]
    simp

end Serialized

/-! ## What the service reads of a `Cookie` header -/

theorem trim_space (s : Text) : trim (' ' :: s) = trim s := by
  have hspace : Auth.jsWhitespace ' ' = true := by decide
  rw [trim, trim, List.dropWhile_cons, hspace, if_pos rfl]

theorem cookiePart_pair
    {name : Text} (value : Text)
    (hne : name ≠ []) (hname : '=' ∉ name) :
    cookiePart (name ++ '=' :: value) = some (trim name, trim value) := by
  have hcut : (name ++ '=' :: value).idxOf '=' = name.length := by
    rw [List.idxOf_append_of_notMem hname, List.idxOf_cons_self, Nat.add_zero]
  have hpos : ¬ (name.length = (name ++ '=' :: value).length ∨ name.length = 0) := by
    simp [hne]
  unfold cookiePart
  dsimp only
  rw [hcut, if_neg hpos, List.take_left, ← List.drop_drop, List.drop_left]
  rfl

theorem cookiePart_space
    {name : Text} (value : Text)
    (hne : name ≠ []) (hname : '=' ∉ name) :
    cookiePart (' ' :: (name ++ '=' :: value)) = cookiePart (name ++ '=' :: value) := by
  have hspaced : '=' ∉ ' ' :: name := by
    simp [hname]
  have h := cookiePart_pair value (List.cons_ne_nil ' ' name) hspaced
  rw [trim_space] at h
  rw [cookiePart_pair value hne hname]
  exact h

def named (n : Text) (c : Cookie) : Bool := trim c.name = n

theorem foldl_readPart
    {cs : List Cookie} {n : Text} (out : Text → Option Text)
    (hn : n ≠ []) (hcs : ∀ c ∈ cs, c.WellFormed) :
    (cs.map Cookie.pair).foldl readPart out n =
      ((cs.filter (named n)).getLast?.map fun c => trim c.value).or (out n) := by
  induction cs generalizing out with
  | nil => rfl
  | cons c cs ih =>
      have hc := hcs c List.mem_cons_self
      have hrest := fun d hd => hcs d (List.mem_cons_of_mem c hd)
      have hpart : cookiePart c.pair = some (trim c.name, trim c.value) :=
        cookiePart_pair c.value hc.name_ne hc.name_equals
      rw [List.map_cons, List.foldl_cons, ih (readPart out c.pair) hrest, List.filter_cons]
      unfold readPart
      rw [hpart]
      dsimp only
      cases hnamed : named n c with
      | true =>
          have hname : trim c.name = n := of_decide_eq_true hnamed
          rw [hname, if_neg hn, Function.update_self, if_pos rfl, List.getLast?_cons]
          cases (cs.filter (named n)).getLast? with
          | none => rfl
          | some d => rfl
      | false =>
          have hname : trim c.name ≠ n := of_decide_eq_false hnamed
          rw [if_neg Bool.false_ne_true]
          split
          · rfl
          · rw [Function.update_of_ne (Ne.symm hname)]

theorem parse_cookies
    {cs : List Cookie} {n : Text} {found : Option Cookie}
    (hn : n ≠ []) (hcs : ∀ c ∈ cs, c.WellFormed)
    (hfound : cs.filter (named n) = found.toList) :
    parseCookieHeader (some (joined (cs.map Cookie.pair))) n =
      found.map fun c => trim c.value := by
  have hfold := foldl_readPart (fun _ => none) hn hcs
  rw [hfound, Option.or_none] at hfold
  have hlast : found.toList.getLast? = found := by
    cases found with
    | none => rfl
    | some c => rfl
  rw [hlast] at hfold
  rw [← hfold]
  cases cs with
  | nil => rfl
  | cons c cs =>
      have hpairs : ∀ q ∈ c.pair :: cs.map Cookie.pair, ';' ∉ q := by
        intro q hq
        obtain ⟨d, hd, rfl⟩ := List.mem_map.mp (List.map_cons ▸ hq)
        have hwell := hcs d hd
        simp [Cookie.pair, hwell.name_semicolon, hwell.value_semicolon]
      have hspaces : ∀ (ds : List Cookie) (out : Text → Option Text),
          (∀ d ∈ ds, d.WellFormed) →
          ((ds.map Cookie.pair).map (' ' :: ·)).foldl readPart out =
            (ds.map Cookie.pair).foldl readPart out := by
        intro ds out hds
        induction ds generalizing out with
        | nil => rfl
        | cons d ds ih =>
            have hd := hds d List.mem_cons_self
            have hspace : readPart out (' ' :: d.pair) = readPart out d.pair := by
              unfold readPart
              rw [Cookie.pair, cookiePart_space d.value hd.name_ne hd.name_equals]
            simp only [List.map_cons, List.foldl_cons, hspace]
            exact ih _ fun e he => hds e (List.mem_cons_of_mem d he)
      have hne : joined (c.pair :: cs.map Cookie.pair) ≠ [] := by
        simp [joined, Cookie.pair]
      unfold parseCookieHeader
      dsimp only
      rw [List.map_cons, if_neg hne, splitOn_joined hpairs, List.foldl_cons,
        hspaces cs _ fun d hd => hcs d (List.mem_cons_of_mem c hd), List.foldl_cons]

/-- Scripts and the service read the same token from the same header. -/
theorem csrfTokenFromCookieHeader_eq (header : Text) :
    csrfTokenFromCookieHeader header =
      (parseCookieHeader (some header) csrfCookieName).getD [] := by
  have hname : csrfCookieName ≠ [] := by decide
  have hfold : ∀ (parts : List Text) (found : Text) (out : Text → Option Text),
      found = (out csrfCookieName).getD [] →
      parts.foldl readCsrfPart found = (parts.foldl readPart out csrfCookieName).getD [] := by
    intro parts
    induction parts with
    | nil =>
        intro found out hfound
        exact hfound
    | cons part parts ih =>
        intro found out hfound
        rw [List.foldl_cons, List.foldl_cons]
        apply ih
        unfold readCsrfPart readPart
        cases cookiePart part with
        | none => exact hfound
        | some pair =>
            dsimp only
            by_cases hpair : pair.1 = csrfCookieName
            · rw [if_pos hpair, hpair, if_neg hname, Function.update_self]
              rfl
            · rw [if_neg hpair]
              split
              · exact hfound
              · rw [Function.update_of_ne (Ne.symm hpair)]
                exact hfound
  unfold csrfTokenFromCookieHeader parseCookieHeader
  dsimp only
  by_cases hheader : header = []
  · rw [hheader, if_pos rfl]
    rfl
  · rw [if_neg hheader]
    exact hfold _ _ _ rfl

/-! ## The cookies of a browser over many answers -/

inductive Slot
  | csrf
  | access
  | refresh
  deriving DecidableEq

def Slot.name : Slot → Text
  | .csrf => csrfCookieName
  | .access => accessCookieName
  | .refresh => refreshCookieName

def Slot.path : Slot → Text
  | .csrf => accessCookiePath
  | .access => accessCookiePath
  | .refresh => refreshCookiePath

def Slot.httpOnly : Slot → Bool
  | .csrf => false
  | .access => true
  | .refresh => true

theorem Slot.written (slot : Slot) : Written slot.name slot.path := by
  cases slot with
  | csrf => exact written_csrf
  | access => exact written_access
  | refresh => exact written_refresh

theorem Slot.name_inj
    {slot other : Slot}
    (h : slot.name = other.name) :
    slot = other := by
  revert h
  cases slot <;> cases other <;> decide

/-- The cookies that the handlers of the service and the pages set. -/
inductive ServiceCookie
  | csrf (value : String)
  | access (value : String) (maxAge : ℤ)
  | refresh (value : String) (maxAge : ℤ)
  | expireAccess
  | expireRefresh
  deriving DecidableEq

namespace ServiceCookie

def header (secure : Bool) : ServiceCookie → Text
  | csrf value => csrfCookie value.toList secure
  | access value maxAge => accessCookie value.toList secure maxAge
  | refresh value maxAge => refreshCookie value.toList secure maxAge
  | expireAccess => expireAccessCookie secure
  | expireRefresh => expireRefreshCookie secure

def slot : ServiceCookie → Slot
  | csrf _ => .csrf
  | access _ _ => .access
  | refresh _ _ => .refresh
  | expireAccess => .access
  | expireRefresh => .refresh

def value : ServiceCookie → String
  | csrf value => value
  | access value _ => value
  | refresh value _ => value
  | expireAccess => ""
  | expireRefresh => ""

def maxAge : ServiceCookie → Option ℤ
  | csrf _ => none
  | access _ maxAge => some maxAge
  | refresh _ maxAge => some maxAge
  | expireAccess => some 0
  | expireRefresh => some 0

theorem parse_header
    {c : ServiceCookie} (secure : Bool) (now : ℤ) (defaultPath : Text)
    (hc : Carried c.value.toList) :
    parseSetCookie now defaultPath (c.header secure) =
      some (received now c.slot.name c.value.toList
        ⟨c.slot.httpOnly, secure, c.slot.path, c.maxAge⟩) := by
  have hparse := @parse_serializeCookie _ _ ⟨c.slot.httpOnly, secure, c.slot.path, c.maxAge⟩
    now defaultPath c.slot.written hc
  rw [← hparse]
  cases c <;> rfl

end ServiceCookie

/-- The session as the browser holds it. -/
structure CookieState where
  csrf : Option String
  pair : Auth.Browser

def CookieState.empty : CookieState where
  csrf := none
  pair := ⟨none, none⟩

def CookieState.receive (s : CookieState) (now : ℤ) : ServiceCookie → CookieState
  | .csrf value => { s with csrf := some value }
  | .access value maxAge =>
      { s with pair := { s.pair with access := some (Auth.setCookie value maxAge now) } }
  | .refresh value maxAge =>
      { s with pair := { s.pair with refresh := some (Auth.setCookie value maxAge now) } }
  | .expireAccess =>
      { s with pair := { s.pair with access := some (Auth.setCookie "" 0 now) } }
  | .expireRefresh =>
      { s with pair := { s.pair with refresh := some (Auth.setCookie "" 0 now) } }

/-- The value in a slot, and until when it is there. -/
def CookieState.at (s : CookieState) : Slot → Option (String × Option ℤ)
  | .csrf => s.csrf.map fun value => (value, none)
  | .access => s.pair.access.map fun c => (c.value, some c.expiresAt)
  | .refresh => s.pair.refresh.map fun c => (c.value, some c.expiresAt)

theorem CookieState.receive_at (s : CookieState) (now : ℤ) (c : ServiceCookie) (slot : Slot) :
    (s.receive now c).at slot =
      if slot = c.slot then
        some (c.value, c.maxAge.map fun seconds => now + seconds * 1000)
      else s.at slot := by
  cases c <;> cases slot <;> rfl

def storedIn (secure : Bool) (slot : Slot) (held : String × Option ℤ) : Cookie where
  name := slot.name
  value := held.1.toList
  path := slot.path
  httpOnly := slot.httpOnly
  secure := secure
  expiresAt := held.2

/-- The pages take the same cookies away as the service. -/
theorem ssr_expires_alike (secure : Bool) (now : ℤ) (defaultPath : Text) :
    parseSetCookie now defaultPath (destroySession secure) =
        parseSetCookie now defaultPath (expireAccessCookie secure) ∧
      parseSetCookie now defaultPath (ssrExpireRefreshCookie secure) =
        parseSetCookie now defaultPath (expireRefreshCookie secure) := by
  have hempty : Carried [] := ⟨List.not_mem_nil, rfl⟩
  constructor
  · exact (parse_ssrSerializeCookie now defaultPath written_access hempty).trans
      (parse_serializeCookie now defaultPath written_access hempty).symm
  · exact (parse_ssrSerializeCookie now defaultPath written_refresh hempty).trans
      (parse_serializeCookie now defaultPath written_refresh hempty).symm

/-- The cookies that the pages take away. -/
inductive PageExpiry
  | access
  | refresh

def PageExpiry.header (secure : Bool) : PageExpiry → Text
  | .access => destroySession secure
  | .refresh => ssrExpireRefreshCookie secure

def PageExpiry.cookie : PageExpiry → ServiceCookie
  | .access => .expireAccess
  | .refresh => .expireRefresh

theorem PageExpiry.receive
    (jar : Jar) (secure : Bool) (now : ℤ) (defaultPath : Text) (expiry : PageExpiry) :
    jar.receive now defaultPath (expiry.header secure) =
      jar.receive now defaultPath (expiry.cookie.header secure) := by
  have halike := ssr_expires_alike secure now defaultPath
  unfold Jar.receive
  cases expiry with
  | access =>
      rw [header, halike.1]
      rfl
  | refresh =>
      rw [header, halike.2]
      rfl

/-- A `Set-Cookie` header of one of the handlers, of the pages, or of anything
else on the host. -/
inductive Receipt
  | service (now : ℤ) (defaultPath : Text) (cookie : ServiceCookie)
  | page (now : ℤ) (defaultPath : Text) (expiry : PageExpiry)
  | other (now : ℤ) (defaultPath header : Text)

def Receipt.jar (secure : Bool) (jar : Jar) : Receipt → Jar
  | .service now defaultPath c => jar.receive now defaultPath (c.header secure)
  | .page now defaultPath expiry => jar.receive now defaultPath (expiry.header secure)
  | .other now defaultPath header => jar.receive now defaultPath header

def Receipt.state (s : CookieState) : Receipt → CookieState
  | .service now _ c => s.receive now c
  | .page now _ expiry => s.receive now expiry.cookie
  | .other _ _ _ => s

/-- The values of the handlers survive the wire, and nothing else sets a cookie
that is read under the name of one of theirs. -/
def Receipt.Valid : Receipt → Prop
  | .service _ _ c => Carried c.value.toList
  | .page _ _ _ => True
  | .other now defaultPath header =>
      ∀ c, parseSetCookie now defaultPath header = some c →
        ∀ slot : Slot, trim c.name ≠ slot.name

structure Agrees (secure : Bool) (jar : Jar) (s : CookieState) : Prop where
  wellFormed : ∀ c ∈ jar, c.WellFormed
  found : ∀ slot : Slot,
    jar.filter (named slot.name) = ((s.at slot).map (storedIn secure slot)).toList
  carried : ∀ slot held, s.at slot = some held → Carried held.1.toList

theorem named_of_sameKey
    {n : Text} {c : Cookie} :
    ∀ d, SameKey c d → named n c = named n d := by
  intro d h
  unfold named
  rw [h.1]

theorem Agrees.empty (secure : Bool) : Agrees secure [] .empty where
  wellFormed c hc := by cases hc
  found slot := by cases slot <;> rfl
  carried slot held h := by cases slot <;> cases h

theorem Agrees.service
    {secure : Bool} {jar : Jar} {s : CookieState} {c : ServiceCookie}
    (h : Agrees secure jar s) (now : ℤ) (defaultPath : Text)
    (hc : Carried c.value.toList) :
    Agrees secure (jar.receive now defaultPath (c.header secure)) (s.receive now c) := by
  have hparse := ServiceCookie.parse_header secure now defaultPath hc
  constructor
  · exact Jar.forall_receive now defaultPath (c.header secure) h.wellFormed
  · intro slot
    unfold Jar.receive
    rw [hparse, CookieState.receive_at]
    dsimp only
    by_cases hslot : slot = c.slot
    · rw [if_pos hslot]
      subst hslot
      apply Jar.filter_put_same named_of_sameKey _ (h.found c.slot)
      · intro d hd
        obtain ⟨held, _, rfl⟩ := Option.map_eq_some_iff.mp hd
        exact ⟨rfl, rfl⟩
      · exact decide_eq_true c.slot.written.name_trimmed
    · rw [if_neg hslot, Jar.filter_put_other named_of_sameKey, h.found slot]
      apply decide_eq_false
      intro hname
      apply hslot
      apply Slot.name_inj
      rw [← hname]
      exact c.slot.written.name_trimmed
  · intro slot held hheld
    rw [CookieState.receive_at] at hheld
    split at hheld
    · cases hheld
      exact hc
    · exact h.carried slot held hheld

theorem Agrees.other
    {secure : Bool} {jar : Jar} {s : CookieState} {now : ℤ} {defaultPath header : Text}
    (h : Agrees secure jar s)
    (hforeign : ∀ c, parseSetCookie now defaultPath header = some c →
      ∀ slot : Slot, trim c.name ≠ slot.name) :
    Agrees secure (jar.receive now defaultPath header) s := by
  constructor
  · exact Jar.forall_receive now defaultPath header h.wellFormed
  · intro slot
    unfold Jar.receive
    split
    · exact h.found slot
    · rename_i c hparse
      rw [Jar.filter_put_other named_of_sameKey, h.found slot]
      exact decide_eq_false (hforeign c hparse slot)
  · exact h.carried

theorem Agrees.run
    {secure : Bool} {jar : Jar} {s : CookieState} {receipts : List Receipt}
    (h : Agrees secure jar s) (hvalid : ∀ r ∈ receipts, r.Valid) :
    Agrees secure (receipts.foldl (Receipt.jar secure) jar)
      (receipts.foldl Receipt.state s) := by
  induction receipts generalizing jar s with
  | nil => exact h
  | cons r receipts ih =>
      rw [List.foldl_cons, List.foldl_cons]
      apply ih _ fun q hq => hvalid q (List.mem_cons_of_mem r hq)
      have hr := hvalid r List.mem_cons_self
      cases r with
      | service now defaultPath c => exact h.service now defaultPath hr
      | page now defaultPath expiry =>
          rw [Receipt.jar, expiry.receive]
          apply h.service now defaultPath
          cases expiry <;> exact ⟨List.not_mem_nil, rfl⟩
      | other now defaultPath header => exact h.other hr

/-! ## What a request carries -/

theorem pathMatches_root
    {path : Text}
    (hpath : path.head? = some '/') :
    pathMatches accessCookiePath path = true := by
  cases path with
  | nil => cases hpath
  | cons c path =>
      rw [List.head?_cons, Option.some_inj] at hpath
      rw [hpath]
      simp [pathMatches, accessCookiePath]

section Carrying

variable {secure : Bool} {jar : Jar} {s : CookieState}

theorem Agrees.parse_header
    (h : Agrees secure jar s) (target : Target) (slot : Slot) :
    parseCookieHeader (some (jar.header target)) slot.name =
      ((s.at slot).filter fun held => (storedIn secure slot held).goesTo target).map
        fun held => held.1.toList := by
  have hfound := Jar.filter_sent target (h.found slot)
  have hparse := parse_cookies slot.written.name_ne
    (fun c hc => h.wellFormed c (Jar.mem_sent hc)) hfound
  refine hparse.trans ?_
  cases hheld : s.at slot with
  | none => rfl
  | some held =>
      have htrim := (h.carried slot held hheld).trimmed
      rw [Option.map_some, Option.filter_some, Option.filter_some]
      split
      · rw [Option.map_some, Option.map_some]
        exact congrArg some htrim
      · rfl

theorem Agrees.parse_documentCookie
    (h : Agrees secure jar s) (target : Target) (slot : Slot) :
    parseCookieHeader (some (jar.documentCookie target)) slot.name =
      if slot.httpOnly then none
      else parseCookieHeader (some (jar.header target)) slot.name := by
  have hfound := Jar.filter_sent target (h.found slot)
  have hseen : ((jar.sent target).filter fun c => !c.httpOnly).filter (named slot.name) =
      ((((s.at slot).map (storedIn secure slot)).filter fun d => d.goesTo target).filter
        fun c => !c.httpOnly).toList := by
    rw [List.filter_comm, hfound]
    exact (Option.toList_filter ..).symm
  have hwell : ∀ c ∈ (jar.sent target).filter fun c => !c.httpOnly, c.WellFormed :=
    fun c hc => h.wellFormed c (Jar.mem_sent (List.mem_filter.mp hc).1)
  have hparse := parse_cookies slot.written.name_ne hwell hseen
  refine hparse.trans ?_
  have hsent := parse_cookies slot.written.name_ne
    (fun c hc => h.wellFormed c (Jar.mem_sent hc)) hfound
  have hheader : parseCookieHeader (some (jar.header target)) slot.name = _ := hsent
  rw [hheader]
  cases s.at slot with
  | none => simp
  | some held =>
      rw [Option.map_some, Option.filter_some]
      by_cases hgoes : (storedIn secure slot held).goesTo target = true
      · rw [if_pos hgoes, Option.filter_some]
        cases hflag : slot.httpOnly <;> simp [storedIn, hflag]
      · rw [if_neg hgoes]
        simp

/-- A cookie of a slot goes to the paths below its own until it expires. -/
theorem goesTo_storedIn
    {slot : Slot} {held : String × Option ℤ} {target : Target}
    (hscheme : secure = true → target.https = true) :
    (storedIn secure slot held).goesTo target =
      (pathMatches slot.path target.path && (storedIn secure slot held).live target.sentAt) := by
  have hsecure : (!secure || target.https) = true := by
    cases secure with
    | false => rfl
    | true => exact hscheme rfl
  unfold Cookie.goesTo
  change (_ && (!secure || target.https) && _) = _
  rw [hsecure, Bool.and_true]
  rfl

theorem filter_presented
    {slot : Slot} (c : Option Auth.Cookie) (t : ℤ) :
    ((c.map fun c => (c.value, some c.expiresAt)).filter
        fun held => (storedIn secure slot held).live t).map (fun held => held.1.toList) =
      (Auth.presented c t).map String.toList := by
  cases c with
  | none => rfl
  | some c =>
      have hstored : (storedIn secure slot (c.value, some c.expiresAt)).live t =
          decide (t < c.expiresAt) := rfl
      rw [Option.map_some, Option.filter_some, hstored]
      unfold Auth.presented
      by_cases hlive : t < c.expiresAt
      · simp [hlive]
      · simp [hlive]

end Carrying

/-- What a request carries, and what scripts read. -/
theorem Agrees.on_the_wire
    {secure : Bool} {jar : Jar} {s : CookieState} {target : Target}
    (h : Agrees secure jar s)
    (hscheme : secure = true → target.https = true)
    (hpath : target.path.head? = some '/') :
    let sent := parseCookieHeader (some (jar.header target))
    let seen := parseCookieHeader (some (jar.documentCookie target))
    sent csrfCookieName = s.csrf.map String.toList ∧
      sent accessCookieName =
        (Auth.presented s.pair.access target.sentAt).map String.toList ∧
      sent refreshCookieName =
        (if pathMatches refreshCookiePath target.path then
          (Auth.presented s.pair.refresh target.sentAt).map String.toList
        else none) ∧
      csrfTokenFromCookieHeader (jar.documentCookie target) =
        (sent csrfCookieName).getD [] ∧
      seen accessCookieName = none ∧ seen refreshCookieName = none := by
  intro sent seen
  have hroot := pathMatches_root hpath
  have hcsrf : sent csrfCookieName = s.csrf.map String.toList := by
    refine (h.parse_header target .csrf).trans ?_
    cases hvalue : s.csrf with
    | none => simp [CookieState.at, hvalue]
    | some value =>
        have hgoes : (storedIn secure .csrf (value, none)).goesTo target = true := by
          rw [goesTo_storedIn hscheme]
          exact Bool.and_eq_true_iff.mpr ⟨hroot, rfl⟩
        simp [CookieState.at, hvalue, Option.filter_some, hgoes]
  refine ⟨hcsrf, ?_, ?_, ?_, ?_, ?_⟩
  · refine (h.parse_header target .access).trans ?_
    simp only [goesTo_storedIn hscheme]
    rw [show pathMatches Slot.access.path target.path = true from hroot]
    simp only [Bool.true_and]
    exact filter_presented s.pair.access target.sentAt
  · refine (h.parse_header target .refresh).trans ?_
    simp only [goesTo_storedIn hscheme]
    cases hmatch : pathMatches refreshCookiePath target.path with
    | true =>
        rw [show pathMatches Slot.refresh.path target.path = true from hmatch, if_pos rfl]
        simp only [Bool.true_and]
        exact filter_presented s.pair.refresh target.sentAt
    | false =>
        rw [show pathMatches Slot.refresh.path target.path = false from hmatch,
          if_neg Bool.false_ne_true]
        simp
  · rw [csrfTokenFromCookieHeader_eq]
    exact congrArg (Option.getD · []) (h.parse_documentCookie target .csrf)
  · exact h.parse_documentCookie target .access
  · exact h.parse_documentCookie target .refresh

/-- Scripts and the service read the same token. -/
theorem Agrees.csrf_on_the_wire
    {secure : Bool} {jar : Jar} {s : CookieState} {target : Target} {token : String}
    (h : Agrees secure jar s)
    (hscheme : secure = true → target.https = true)
    (hpath : target.path.head? = some '/')
    (htoken : s.csrf = some token) :
    parseCookieHeader (some (jar.header target)) csrfCookieName = some token.toList ∧
      csrfTokenFromCookieHeader (jar.documentCookie target) = token.toList := by
  obtain ⟨hsent, _, _, hread, _⟩ := h.on_the_wire hscheme hpath
  rw [htoken, Option.map_some] at hsent
  rw [hsent] at hread
  exact ⟨hsent, hread⟩

/-- After any answers, a request carries just the cookies that the session of
the browser has for its path and its instant; scripts read the same token as the
service, and neither of the other two. -/
theorem session_on_the_wire
    {secure : Bool} {receipts : List Receipt} {target : Target}
    (hvalid : ∀ r ∈ receipts, r.Valid)
    (hscheme : secure = true → target.https = true)
    (hpath : target.path.head? = some '/') :
    let jar : Jar := receipts.foldl (Receipt.jar secure) []
    let s := receipts.foldl Receipt.state .empty
    let sent := parseCookieHeader (some (jar.header target))
    let seen := parseCookieHeader (some (jar.documentCookie target))
    sent csrfCookieName = s.csrf.map String.toList ∧
      sent accessCookieName =
        (Auth.presented s.pair.access target.sentAt).map String.toList ∧
      sent refreshCookieName =
        (if pathMatches refreshCookiePath target.path then
          (Auth.presented s.pair.refresh target.sentAt).map String.toList
        else none) ∧
      csrfTokenFromCookieHeader (jar.documentCookie target) =
        (sent csrfCookieName).getD [] ∧
      seen accessCookieName = none ∧ seen refreshCookieName = none := by
  intro jar s
  have h : Agrees secure jar s := (Agrees.empty secure).run hvalid
  exact h.on_the_wire hscheme hpath

/-- A browser with the cookies of a log-in and one of another program; a page took
an older session away. -/
def loggedInReceipts : List Receipt :=
  [.other 0 "/".toList "theme=dark; Path=/".toList,
    .page 500 "/".toList .access,
    .page 500 "/".toList .refresh,
    .service 1000 "/".toList (.csrf "c1"),
    .service 1000 "/".toList (.access "a1" 900),
    .service 1000 "/".toList (.refresh "r1" 900)]

theorem loggedInReceipts_valid : ∀ r ∈ loggedInReceipts, r.Valid := by
  intro r hr
  simp only [loggedInReceipts, List.mem_cons, List.not_mem_nil, or_false] at hr
  rcases hr with rfl | rfl | rfl | rfl | rfl | rfl
  · intro c hc slot
    cases hc
    cases slot <;> decide
  · trivial
  · trivial
  · constructor <;> decide
  · constructor <;> decide
  · constructor <;> decide

theorem session_on_the_wire_logged_in :
    parseCookieHeader (some (Jar.header (loggedInReceipts.foldl (Receipt.jar true) [])
      ⟨true, "/api/v2/auth/refresh".toList, 5000⟩)) refreshCookieName = some "r1".toList := by
  have h := @session_on_the_wire true loggedInReceipts
    ⟨true, "/api/v2/auth/refresh".toList, 5000⟩ loggedInReceipts_valid (fun _ => rfl) rfl
  exact h.2.2.1

/-! ## The answers of the handlers -/

/-- The `Set-Cookie` headers of `handle_login`, which gives back the token that
the request came with. -/
def loginAnswer (a : Auth.LoginArgs) (mustChange : Bool) (cookieToken token : String) :
    List ServiceCookie :=
  [.csrf cookieToken, .access token (a.times mustChange).accessMaxAge] ++
    ((a.times mustChange).refreshMaxAge.map (.refresh a.refreshToken)).toList

def refreshAnswer (cookieToken : String) : Auth.RefreshPipelineResult → List ServiceCookie
  | .success refreshToken accessToken refreshMaxAge accessMaxAge =>
      [.csrf cookieToken, .refresh refreshToken refreshMaxAge] ++
        (accessToken.map (.access · accessMaxAge)).toList
  | _ => []

def logoutAnswer : List ServiceCookie := [.expireAccess, .expireRefresh]

def CookieState.receiveAll (s : CookieState) (now : ℤ) (cookies : List ServiceCookie) :
    CookieState :=
  cookies.foldl (fun s c => s.receive now c) s

/-- A log-in without a refresh token leaves an older one where it is. -/
theorem loginAnswer_pair (s : CookieState) (now : ℤ) (a : Auth.LoginArgs) (mustChange : Bool)
    (cookieToken token : String) :
    (s.receiveAll now (loginAnswer a mustChange cookieToken token)).pair =
      { access := (a.cookies mustChange token now).access
        refresh := (a.cookies mustChange token now).refresh.or s.pair.refresh } := by
  unfold CookieState.receiveAll loginAnswer Auth.LoginArgs.cookies
  cases (a.times mustChange).refreshMaxAge with
  | none => rfl
  | some maxAge => rfl

theorem refreshAnswer_pair (s : CookieState) (now : ℤ) (cookieToken : String)
    (result : Auth.RefreshPipelineResult) :
    (s.receiveAll now (refreshAnswer cookieToken result)).pair = s.pair.answered result now := by
  cases result with
  | success refreshToken accessToken refreshMaxAge accessMaxAge =>
      cases accessToken with
      | none => rfl
      | some token => rfl
  | soft => rfl
  | hard => rfl
  | unavailable => rfl
  | internalError => rfl

theorem logoutAnswer_presented
    {now t : ℤ} (s : CookieState)
    (ht : now ≤ t) :
    Auth.presented (s.receiveAll now logoutAnswer).pair.access t = none ∧
      Auth.presented (s.receiveAll now logoutAnswer).pair.refresh t = none := by
  have hgone : Auth.presented (some (Auth.setCookie "" 0 now)) t = none := by
    have hnot : ¬ t < (Auth.setCookie "" 0 now).expiresAt := by
      simp only [Auth.setCookie]
      omega
    unfold Auth.presented
    dsimp only
    rw [if_neg hnot]
  exact ⟨hgone, hgone⟩

end Untangled.SessionCookies
