import Untangled.TimeEntry

/-!
# The client that the edge names

`forwarded.ts` reads the address of the client from the `Forwarded` header that
the edge proxy writes anew for each request.  The last of its parameters is the
host that the client has asked for, which may be any text.
-/

namespace Untangled.Forwarded

open JsDates Datetime

/-! ## The header -/

structure ForwardedIdentity where
  for_ : Option Text
  proto : Option Text
  host : Option Text
  deriving DecidableEq

/-- `\d{1,3}`, and what follows. -/
def octet (s : Text) : Option Text :=
  let digits := (s.take 3).takeWhile Char.isDigit
  if digits = [] then none else some (s.drop digits.length)

def dotted : ℕ → Text → Option Text
  | 0, s => some s
  | n + 1, s =>
      match s with
      | '.' :: s => (octet s).bind (dotted n)
      | _ => none

/-- `/^\d{1,3}(?:\.\d{1,3}){3}:\d+$/` -/
def isAddressWithPort (s : Text) : Bool :=
  match (octet s).bind (dotted 3) with
  | some (':' :: port) => port ≠ [] && port.all Char.isDigit
  | _ => false

/-- What stands before the last colon. -/
def beforeLastColon (s : Text) : Text :=
  ((s.reverse.dropWhile (· ≠ ':')).drop 1).reverse

def normalizeForwardedNode (raw : Text) : Option Text :=
  let value :=
    if raw.head? = some '"' ∧ raw.getLast? = some '"' ∧ 2 ≤ raw.length then
      (raw.drop 1).dropLast
    else raw
  if value = [] then none
  else if value.head? = some '[' ∧ ']' ∈ value ∧ 1 < value.idxOf ']' then
    some ((value.take (value.idxOf ']')).drop 1)
  else if isAddressWithPort value then some (beforeLastColon value)
  else some value

/-- `\s*name=([^;]+)` at the start of a text; letters match in either case. -/
def matchHere (name s : Text) : Option Text :=
  let rest := s.dropWhile Auth.jsWhitespace
  if (rest.take (name.length + 1)).map Char.toLower = name ++ ['='] then
    let value := (rest.drop (name.length + 1)).takeWhile (· ≠ ';')
    if value = [] then none else some value
  else none

/-- The first match behind a semicolon. -/
def searchBehind (name : Text) : Text → Option Text
  | [] => none
  | c :: s => if c = ';' then (matchHere name s).or (searchBehind name s) else searchBehind name s

def param (segment name : Text) : Option Text :=
  ((matchHere name segment).or (searchBehind name segment)).bind fun value =>
    normalizeForwardedNode (trim value)

def parseForwarded (header : Option Text) : ForwardedIdentity :=
  match header with
  | none => ⟨none, none, none⟩
  | some header =>
      if header = [] then ⟨none, none, none⟩
      else
        let first := trim ((header.splitOn ',').headD [])
        ⟨param first "for".toList, param first "proto".toList, param first "host".toList⟩

structure RequestIdentity where
  sourceIp : Option Text
  protocol : Option Text
  host : Option Text
  deriving DecidableEq

/-- `origin` is the scheme and the host of the public origin, if that is set and
parses. -/
def requestIdentity (forwarded : Option Text) (remoteAddress : Option Text)
    (origin : Option (Text × Text)) : RequestIdentity :=
  let parsed := parseForwarded forwarded
  let fallback := if parsed.proto = none ∨ parsed.host = none then origin else none
  { sourceIp := parsed.for_.or remoteAddress
    protocol := parsed.proto.or (fallback.map Prod.fst)
    host := parsed.host.or (fallback.map Prod.snd) }

/-! ## What the edge writes -/

/-- `Forwarded` as the Caddyfile sets it. -/
def edgeForwarded (remoteHost scheme host : Text) : Text :=
  "for=".toList ++ (remoteHost ++ (";proto=".toList ++ (scheme ++ (";host=".toList ++ host))))

/-- A text that is read back as it is. -/
structure Plain (s : Text) : Prop where
  ne_nil : s ≠ []
  trimmed : trim s = s
  noSemicolon : ';' ∉ s
  noComma : ',' ∉ s
  noQuote : s.head? ≠ some '"'
  noBracket : s.head? ≠ some '['
  noPort : isAddressWithPort s = false

theorem Plain.normalize
    {s : Text}
    (h : Plain s) :
    normalizeForwardedNode s = some s := by
  unfold normalizeForwardedNode
  simp only [h.noQuote, h.noBracket, h.noPort, h.ne_nil, false_and, if_false,
    Bool.false_eq_true]

theorem takeWhile_ne
    {s : Text} {x : Char} (rest : Text)
    (hs : x ∉ s) :
    (s ++ x :: rest).takeWhile (· ≠ x) = s := by
  have hall : ∀ c ∈ s, decide (c ≠ x) = true := by
    intro c hc
    have hne : c ≠ x := fun h => hs (h ▸ hc)
    simp [hne]
  rw [List.takeWhile_append_of_pos hall]
  simp

theorem matchHere_param
    {name s : Text} {d : Char} (rest : Text)
    (hlower : name.map Char.toLower = name)
    (hhead : name.head? = some d) (hspace : Auth.jsWhitespace d = false)
    (hne : s ≠ []) (hs : ';' ∉ s) :
    matchHere name (name ++ '=' :: (s ++ ';' :: rest)) = some s := by
  have hdrop : (name ++ '=' :: (s ++ ';' :: rest)).dropWhile Auth.jsWhitespace =
      name ++ '=' :: (s ++ ';' :: rest) := by
    cases name with
    | nil => cases hhead
    | cons c name =>
        rw [List.head?_cons, Option.some_inj] at hhead
        rw [List.cons_append, List.dropWhile_cons, hhead, hspace, if_neg Bool.false_ne_true]
  have hassoc : name ++ '=' :: (s ++ ';' :: rest) = (name ++ ['=']) ++ (s ++ ';' :: rest) := by
    simp
  have hlength : name.length + 1 = (name ++ ['=']).length := by
    simp
  have heq : ['='].map Char.toLower = ['='] := by decide
  unfold matchHere
  dsimp only
  rw [hdrop, hassoc, hlength, List.take_left, List.drop_left, List.map_append, hlower, heq,
    if_pos rfl, takeWhile_ne rest hs, if_neg hne]

theorem matchHere_ne
    {name : Text} {c d : Char} (s : Text)
    (hname : name.head? = some c) (hspace : Auth.jsWhitespace d = false)
    (hne : d.toLower ≠ c) :
    matchHere name (d :: s) = none := by
  cases name with
  | nil => cases hname
  | cons e name =>
      rw [List.head?_cons, Option.some_inj] at hname
      subst hname
      unfold matchHere
      rw [List.dropWhile_cons, hspace, if_neg Bool.false_ne_true]
      dsimp only
      rw [if_neg]
      intro heq
      rw [List.length_cons, List.take_succ_cons, List.map_cons, List.cons_append,
        List.cons.injEq] at heq
      exact hne heq.1

theorem searchBehind_semicolon
    {s : Text} (name rest : Text)
    (hs : ';' ∉ s) :
    searchBehind name (s ++ ';' :: rest) = (matchHere name rest).or (searchBehind name rest) := by
  induction s with
  | nil => rw [List.nil_append, searchBehind, if_pos rfl]
  | cons c s ih =>
      have hc : c ≠ ';' := by
        intro h
        rw [h] at hs
        exact hs List.mem_cons_self
      rw [List.cons_append, searchBehind, if_neg hc]
      exact ih fun h => hs (List.mem_cons_of_mem c h)

theorem headD_splitOn (s : Text) (x : Char) : (s.splitOn x).headD [] = s.takeWhile (· ≠ x) := by
  induction s with
  | nil => rw [List.splitOn_nil]; rfl
  | cons c s ih =>
      rw [List.splitOn_cons_eq_if_modifyHead]
      by_cases hc : c = x
      · simp [hc]
      · cases hsplit : s.splitOn x with
        | nil => exact absurd hsplit (List.splitOn_ne_nil x s)
        | cons q rest =>
            rw [hsplit] at ih
            simpa [hc] using ih

theorem trim_append
    {l : Text} (r : Text)
    (hhead : ∀ c ∈ l.head?, Auth.jsWhitespace c = false)
    (hlast : ∀ c ∈ l.getLast?, Auth.jsWhitespace c = false) (hne : l ≠ []) :
    trim (l ++ r) = l ++ r.rdropWhile Auth.jsWhitespace := by
  have hdrop : (l ++ r).dropWhile Auth.jsWhitespace = l ++ r := by
    cases l with
    | nil => exact absurd rfl hne
    | cons c l =>
        rw [List.cons_append, List.dropWhile_cons, hhead c rfl, if_neg Bool.false_ne_true]
  have hstay : l.reverse.dropWhile Auth.jsWhitespace = l.reverse := by
    cases hreverse : l.reverse with
    | nil => rfl
    | cons c rest =>
        have hc : c ∈ l.getLast? := by
          rw [← List.head?_reverse, hreverse]
          exact rfl
        rw [List.dropWhile_cons, hlast c hc, if_neg Bool.false_ne_true]
  rw [trim_eq_rdropWhile, hdrop, List.rdropWhile, List.rdropWhile, List.reverse_append,
    List.dropWhile_append]
  split
  · rename_i hempty
    rw [List.isEmpty_iff.mp hempty, hstay]
    simp
  · rw [List.reverse_append, List.reverse_reverse]

/-- Whatever host the client asks for, the service takes the client for the one
that the edge has seen. -/
theorem requestIdentity_edge
    {remoteHost scheme : Text} {remoteAddress : Option Text} {origin : Option (Text × Text)}
    (host : Text) (hremote : Plain remoteHost) (hscheme : Plain scheme) :
    let identity := requestIdentity (some (edgeForwarded remoteHost scheme host))
      remoteAddress origin
    identity.sourceIp = some remoteHost ∧ identity.protocol = some scheme := by
  have hcut : (edgeForwarded remoteHost scheme host).takeWhile (· ≠ ',') =
      edgeForwarded remoteHost scheme (host.takeWhile (· ≠ ',')) := by
    have hall : ∀ {s : Text}, ',' ∉ s → ∀ c ∈ s, decide (c ≠ ',') = true := by
      intro s hs c hc
      have hne : c ≠ ',' := fun h => hs (h ▸ hc)
      simp [hne]
    unfold edgeForwarded
    rw [List.takeWhile_append_of_pos (hall (by decide)),
      List.takeWhile_append_of_pos (hall hremote.noComma),
      List.takeWhile_append_of_pos (hall (by decide)),
      List.takeWhile_append_of_pos (hall hscheme.noComma),
      List.takeWhile_append_of_pos (hall (by decide))]
  have htrim : ∀ s : Text, trim (edgeForwarded remoteHost scheme s) =
      edgeForwarded remoteHost scheme (s.rdropWhile Auth.jsWhitespace) := by
    intro s
    have hassoc : ∀ r : Text, edgeForwarded remoteHost scheme r =
        ("for=".toList ++ (remoteHost ++ (";proto=".toList ++ (scheme ++ ";host=".toList)))) ++
          r := by
      intro r
      simp [edgeForwarded]
    rw [hassoc s, hassoc (s.rdropWhile Auth.jsWhitespace)]
    apply trim_append
    · intro c hc
      cases hc
      decide
    · intro c hc
      rw [← List.append_assoc, ← List.append_assoc, ← List.append_assoc,
        List.getLast?_append_of_ne_nil _ (by decide)] at hc
      cases hc
      decide
    · simp
  have hfirst : trim (((edgeForwarded remoteHost scheme host).splitOn ',').headD []) =
      edgeForwarded remoteHost scheme
        ((host.takeWhile (· ≠ ',')).rdropWhile Auth.jsWhitespace) := by
    rw [headD_splitOn, hcut, htrim]
  generalize (host.takeWhile (· ≠ ',')).rdropWhile Auth.jsWhitespace = tail at hfirst
  have hfor : param (edgeForwarded remoteHost scheme tail) "for".toList = some remoteHost := by
    have hmatch : matchHere "for".toList (edgeForwarded remoteHost scheme tail) =
        some remoteHost :=
      matchHere_param _ (by decide) rfl (by decide) hremote.ne_nil hremote.noSemicolon
    rw [param, hmatch, Option.some_or, Option.bind_some, hremote.trimmed, hremote.normalize]
  have hproto : param (edgeForwarded remoteHost scheme tail) "proto".toList = some scheme := by
    have hstart : matchHere "proto".toList (edgeForwarded remoteHost scheme tail) = none :=
      @matchHere_ne _ 'p' 'f' _ rfl (by decide) (by decide)
    have hmatch : matchHere "proto".toList
        ("proto".toList ++ '=' :: (scheme ++ ';' :: ("host=".toList ++ tail))) = some scheme :=
      matchHere_param _ (by decide) rfl (by decide) hscheme.ne_nil hscheme.noSemicolon
    have hbehind : ';' ∉ "for=".toList ++ remoteHost := by
      simp [hremote.noSemicolon]
    have hsearch := searchBehind_semicolon "proto".toList
      ("proto".toList ++ '=' :: (scheme ++ ';' :: ("host=".toList ++ tail))) hbehind
    rw [hmatch, Option.some_or, List.append_assoc] at hsearch
    have hfound : searchBehind "proto".toList (edgeForwarded remoteHost scheme tail) =
        some scheme := hsearch
    rw [param, hstart, Option.none_or, hfound, Option.bind_some, hscheme.trimmed,
      hscheme.normalize]
  have hne : edgeForwarded remoteHost scheme host ≠ [] := by
    simp [edgeForwarded]
  have hparsed : (parseForwarded (some (edgeForwarded remoteHost scheme host))).for_ =
      some remoteHost ∧
        (parseForwarded (some (edgeForwarded remoteHost scheme host))).proto = some scheme := by
    rw [parseForwarded, if_neg hne]
    dsimp only
    rw [hfirst]
    exact ⟨hfor, hproto⟩
  exact ⟨(congrArg (Option.or · remoteAddress) hparsed.1).trans Option.some_or,
    (congrArg (Option.or · _) hparsed.2).trans Option.some_or⟩

/-- A client at 203.0.113.9 that names another address in its host. -/
theorem requestIdentity_edge_spoofed :
    (requestIdentity (some (edgeForwarded "203.0.113.9".toList "https".toList
        "localhost;for=198.51.100.7, for=198.51.100.8".toList)) (some "172.18.0.2".toList)
        none).sourceIp = some "203.0.113.9".toList := by
  have hremote : Plain "203.0.113.9".toList := by
    constructor <;> decide
  have hscheme : Plain "https".toList := by
    constructor <;> decide
  exact (requestIdentity_edge "localhost;for=198.51.100.7, for=198.51.100.8".toList hremote
    hscheme).1

end Untangled.Forwarded
