import Untangled.UrlResolution

/-!
# Redirects after sign-in

`safe_next_path` of the auth service and of the SSR server, and where a browser
goes with what it returns.  A lone surrogate counts as the replacement character
that a URL parser makes of it.
-/

namespace Untangled.NextPath

open UrlResolution

/-- `safe_next_path` of `auth/src/next_path.ts` -/
def authSafeNextPath (raw : Option (List Char)) (fallback : List Char) : List Char :=
  match raw with
  | none => fallback
  | some raw =>
      if raw = [] then fallback
      else if !(['/'] <+: raw) || ['/', '/'] <+: raw || [':', '/', '/'] <:+: raw then fallback
      else raw

/-- `safe_next_path` of `frontend/app/auth/next_path.ts` -/
def ssrSafeNextPath (raw : Option (List Char)) (fallback : List Char) : List Char :=
  match raw with
  | none => fallback
  | some raw =>
      if raw = [] then fallback
      else if !(['/'] <+: raw) || ['/', '/'] <+: raw || [':', '/', '/'] <:+: raw then fallback
      else raw

/-- The guard lets the text pass. -/
def Passes (raw : List Char) : Prop :=
  ['/'] <+: raw ∧ ¬ ['/', '/'] <+: raw ∧ ¬ [':', '/', '/'] <:+: raw

/-- Scheme, host and port of the public origin are kept. -/
def StaysOnSite {η : Type} (R : Rules η) (origin : Url η) (path : List Char) : Prop :=
  ∀ url, resolve R origin path = some url →
    url.scheme = origin.scheme ∧ url.host = origin.host ∧ url.port = origin.port

/-- A second slash or backslash, tabs and newlines not counted, is followed by no
authority but that of the origin. -/
def NamesNoOtherSite {η : Type} (R : Rules η) (origin : Url η) (raw : List Char) : Prop :=
  ∀ text, afterSlashes (clean raw) = some text →
    ∀ site, authorityState R text = some site → site = (origin.host, origin.port)

theorem authSafeNextPath_of_passes {raw : List Char} (h : Passes raw) (fallback : List Char) :
    authSafeNextPath (some raw) fallback = raw := by
  rcases h with ⟨hslash, htwo, hscheme⟩
  have hne : raw ≠ [] := by
    rintro rfl
    simp at hslash
  simp [authSafeNextPath, hne, hslash, htwo, hscheme]

theorem authSafeNextPath_of_not_passes {raw : List Char} (h : ¬ Passes raw)
    (fallback : List Char) : authSafeNextPath (some raw) fallback = fallback := by
  by_cases hslash : ['/'] <+: raw
  · by_cases htwo : ['/', '/'] <+: raw
    · simp [authSafeNextPath, htwo]
    · have hscheme : [':', '/', '/'] <:+: raw := by
        by_contra hnot
        exact h ⟨hslash, htwo, hnot⟩
      simp [authSafeNextPath, hscheme]
  · simp [authSafeNextPath, hslash]

section Site

variable {η : Type} {R : Rules η} {origin : Url η}

theorem staysOnSite_fallback : StaysOnSite R origin ['/'] := by
  rw [StaysOnSite, resolve_slash_keeps_iff]
  intro text htext
  cases htext

theorem staysOnSite_authSafeNextPath_iff {raw : List Char} :
    StaysOnSite R origin (authSafeNextPath (some raw) ['/']) ↔
      (Passes raw → NamesNoOtherSite R origin raw) := by
  by_cases hpasses : Passes raw
  · rw [authSafeNextPath_of_passes hpasses]
    rcases hpasses.1 with ⟨rest, rfl⟩
    rw [StaysOnSite, List.singleton_append, resolve_slash_keeps_iff]
    exact ⟨fun h _ => h, fun h => h hpasses⟩
  · rw [authSafeNextPath_of_not_passes hpasses]
    exact ⟨fun _ h => absurd h hpasses, fun _ => staysOnSite_fallback⟩

end Site

/-- The redirect stays on the site exactly when the text does not pass or names no
other site; both copies return the same path. -/
theorem nextPath_staysOnSite_iff
    {η : Type} (R : Rules η) (host : η) (port : Option ℕ) (raw : List Char) :
    ssrSafeNextPath (some raw) ['/'] = authSafeNextPath (some raw) ['/'] ∧
      (StaysOnSite R (httpsOrigin host port) (authSafeNextPath (some raw) ['/']) ↔
        (Passes raw → NamesNoOtherSite R (httpsOrigin host port) raw)) :=
  ⟨rfl, staysOnSite_authSafeNextPath_iff⟩

/-- Hosts as they are written. -/
def plainHosts : Rules (List Char) where
  parseHost text := some text
  schemeState _ _ := none

/-- `/\evil.example` passes, and a browser reads it as `//evil.example`. -/
theorem backslash_leaves_site :
    ¬ ∀ (R : Rules (List Char)) (host : List Char) (port : Option ℕ) (raw : List Char),
      StaysOnSite R (httpsOrigin host port) (authSafeNextPath (some raw) ['/']) := by
  intro hstays
  have hkept := hstays plainHosts "itsm.example".toList none "/\\evil.example".toList
    (httpsOrigin "evil.example".toList none) (by decide +kernel)
  exact absurd hkept.2.1 (by decide)

end Untangled.NextPath
