import Mathlib.Data.Set.Insert
import Mathlib.Logic.Relation
import Mathlib.Tactic

/-!
# Ledgers of rotating single-use tokens

An abstract account of sessions that carry at most one live token each.  A
session is opened, its live token is exchanged for a new one, a session opened
without a token is activated once, and entries may disappear at any time.
Every one of these acts is atomic here and is recorded under the call that
performed it.

Identifiers, owners, lifetimes, tokens and calls are arbitrary types.  The only
assumption is freshness: an opened session and a minted token were never opened
or minted before.
-/

namespace TokenLedger

/-- A session: who owns it, its lifetime, and its live token if it has one. -/
structure Entry (ο κ η : Type) where
  owner : ο
  cap : κ
  token : Option η

inductive Event (ι ο κ η : Type)
  | opened (id : ι) (entry : Entry ο κ η)
  | rotated (id : ι) (owner : ο) (old new : η)
  | activated (id : ι) (owner : ο) (new : η)

variable {ι ο κ η γ : Type}

namespace Event

/-- The token an event brings into existence. -/
def minted : Event ι ο κ η → Option η
  | .opened _ entry => entry.token
  | .rotated _ _ _ new => some new
  | .activated _ _ new => some new

/-- The session an event brings into existence. -/
def openedId : Event ι ο κ η → Option ι
  | .opened id _ => some id
  | _ => none

end Event

/-- The live sessions, the spent tokens, and what each call has achieved. -/
@[ext] structure Ledger (ι ο κ η γ : Type) where
  live : ι → Option (Entry ο κ η)
  spent : Set η
  history : γ → Option (Event ι ο κ η)

namespace Ledger

def initial : Ledger ι ο κ η γ where
  live _ := none
  spent := ∅
  history _ := none

/-- Entries may disappear; nothing else changes. -/
structure Pruned (l l' : Ledger ι ο κ η γ) : Prop where
  live : ∀ {id entry}, l'.live id = some entry → l.live id = some entry
  spent : l'.spent ⊆ l.spent
  history : l'.history = l.history

/-- What recording an event does to the sessions and the spent tokens. -/
inductive Effect [DecidableEq ι] (l : Ledger ι ο κ η γ) :
    Event ι ο κ η → (ι → Option (Entry ο κ η)) → Set η → Prop
  | opened (id : ι) (entry : Entry ο κ η) :
      Effect l (.opened id entry) (Function.update l.live id (some entry))
        l.spent
  | rotated {id entry} {old : η} (new : η) (hlive : l.live id = some entry)
      (htoken : entry.token = some old) :
      Effect l (.rotated id entry.owner old new)
        (Function.update l.live id (some { entry with token := some new }))
        (insert old l.spent)
  | activated {id entry} (new : η) (hlive : l.live id = some entry)
      (htoken : entry.token = none) :
      Effect l (.activated id entry.owner new)
        (Function.update l.live id (some { entry with token := some new }))
        l.spent

/-- What an event mints has not been minted before. -/
structure Fresh (l : Ledger ι ο κ η γ) (event : Event ι ο κ η) : Prop where
  minted : ∀ {token call earlier}, event.minted = some token →
    l.history call = some earlier → earlier.minted ≠ some token
  openedId : ∀ {id call earlier}, event.openedId = some id →
    l.history call = some earlier → earlier.openedId ≠ some id

/-- One step: some entries disappear, and at most one call records an event. -/
inductive Step [DecidableEq ι] [DecidableEq γ] (l : Ledger ι ο κ η γ) :
    Ledger ι ο κ η γ → Prop
  | prune {l'} (hpruned : Pruned l l') : Step l l'
  | record {l₁ live' spent'} (call : γ) (event : Event ι ο κ η)
      (hpruned : Pruned l l₁) (hnone : l₁.history call = none)
      (hfresh : l₁.Fresh event) (heffect : l₁.Effect event live' spent') :
      Step l ⟨live', spent', Function.update l₁.history call (some event)⟩

/-- A token was minted by some call. -/
def Minted (l : Ledger ι ο κ η γ) (token : η) : Prop :=
  ∃ call event, l.history call = some event ∧ event.minted = some token

def Opened (l : Ledger ι ο κ η γ) (id : ι) (entry : Entry ο κ η) : Prop :=
  ∃ call, l.history call = some (.opened id entry)

/-- The session was opened with a token or has been activated by its owner. -/
def Unlocked (l : Ledger ι ο κ η γ) (id : ι) (owner : ο) : Prop :=
  (∃ entry, l.Opened id entry ∧ entry.token ≠ none) ∨
    ∃ call new, l.history call = some (.activated id owner new)

/-- The invariant of every run. -/
structure Sound (l : Ledger ι ο κ η γ) : Prop where
  /-- A live session keeps the owner and the lifetime it was opened with. -/
  opened : ∀ {id entry}, l.live id = some entry →
    ∃ first, l.Opened id first ∧ first.owner = entry.owner ∧
      first.cap = entry.cap
  openedOnce : ∀ {id call call' entry entry'},
    l.history call = some (.opened id entry) →
    l.history call' = some (.opened id entry') → call = call'
  minted : ∀ {id entry token}, l.live id = some entry →
    entry.token = some token → l.Minted token
  spentMinted : ∀ {token}, token ∈ l.spent → l.Minted token
  /-- No token is live in two sessions. -/
  distinct : ∀ {id id' entry entry' token}, l.live id = some entry →
    l.live id' = some entry' → entry.token = some token →
    entry'.token = some token → id = id'
  apart : ∀ {id entry token}, l.live id = some entry →
    entry.token = some token → token ∉ l.spent
  /-- A token that has been exchanged is never live again. -/
  consumed : ∀ {call id owner old new},
    l.history call = some (.rotated id owner old new) →
      l.Minted old ∧ ∀ {id' entry}, l.live id' = some entry →
        entry.token ≠ some old
  rotatedOnce : ∀ {call call' id id' owner owner' old new new'},
    l.history call = some (.rotated id owner old new) →
    l.history call' = some (.rotated id' owner' old new') → call = call'
  /-- A session is activated by its owner, and never without a token again. -/
  activated : ∀ {call id owner new},
    l.history call = some (.activated id owner new) →
      (∃ first, l.Opened id first ∧ first.owner = owner) ∧
        ∀ {entry}, l.live id = some entry → entry.token ≠ none
  activatedOnce : ∀ {call call' id owner owner' new new'},
    l.history call = some (.activated id owner new) →
    l.history call' = some (.activated id owner' new') → call = call'
  unlocked : ∀ {id entry token}, l.live id = some entry →
    entry.token = some token → l.Unlocked id entry.owner
  rotatedUnlocked : ∀ {call id owner old new},
    l.history call = some (.rotated id owner old new) → l.Unlocked id owner

/-! ## Pruning -/

namespace Pruned

variable {l l' : Ledger ι ο κ η γ}

theorem refl (l : Ledger ι ο κ η γ) : l.Pruned l where
  live := id
  spent := subset_rfl
  history := rfl

theorem minted_iff (hpruned : l.Pruned l') {token : η} :
    l'.Minted token ↔ l.Minted token := by
  unfold Minted
  rw [hpruned.history]

theorem opened_iff (hpruned : l.Pruned l') {id : ι} {entry : Entry ο κ η} :
    l'.Opened id entry ↔ l.Opened id entry := by
  unfold Opened
  rw [hpruned.history]

theorem unlocked_iff (hpruned : l.Pruned l') {id : ι} {owner : ο} :
    l'.Unlocked id owner ↔ l.Unlocked id owner := by
  unfold Unlocked Opened
  rw [hpruned.history]

theorem sound (hpruned : l.Pruned l') (hsound : l.Sound) : l'.Sound where
  opened := by
    intro id entry hlive
    obtain ⟨first, hopened, hrest⟩ := hsound.opened (hpruned.live hlive)
    exact ⟨first, hpruned.opened_iff.mpr hopened, hrest⟩
  openedOnce := by
    rw [hpruned.history]
    exact hsound.openedOnce
  minted := fun hlive htoken =>
    hpruned.minted_iff.mpr (hsound.minted (hpruned.live hlive) htoken)
  spentMinted := fun hspent =>
    hpruned.minted_iff.mpr (hsound.spentMinted (hpruned.spent hspent))
  distinct := fun hlive hlive' =>
    hsound.distinct (hpruned.live hlive) (hpruned.live hlive')
  apart := fun hlive htoken hspent =>
    hsound.apart (hpruned.live hlive) htoken (hpruned.spent hspent)
  consumed := by
    intro call id owner old new hcall
    rw [hpruned.history] at hcall
    obtain ⟨hminted, hdead⟩ := hsound.consumed hcall
    exact ⟨hpruned.minted_iff.mpr hminted,
      fun hlive => hdead (hpruned.live hlive)⟩
  rotatedOnce := by
    rw [hpruned.history]
    exact hsound.rotatedOnce
  activated := by
    intro call id owner new hcall
    rw [hpruned.history] at hcall
    obtain ⟨⟨first, hopened, howner⟩, htoken⟩ := hsound.activated hcall
    exact ⟨⟨first, hpruned.opened_iff.mpr hopened, howner⟩,
      fun hlive => htoken (hpruned.live hlive)⟩
  activatedOnce := by
    rw [hpruned.history]
    exact hsound.activatedOnce
  unlocked := fun hlive htoken =>
    hpruned.unlocked_iff.mpr (hsound.unlocked (hpruned.live hlive) htoken)
  rotatedUnlocked := by
    intro call id owner old new hcall
    rw [hpruned.history] at hcall
    exact hpruned.unlocked_iff.mpr (hsound.rotatedUnlocked hcall)

end Pruned

section Openings

variable {l : Ledger ι ο κ η γ}

/-- Two openings of one session are one event. -/
theorem Sound.opened_unique (hsound : l.Sound) {id : ι}
    {entry entry' : Entry ο κ η} (hopened : l.Opened id entry)
    (hopened' : l.Opened id entry') : entry = entry' := by
  obtain ⟨c, hc⟩ := hopened
  obtain ⟨c', hc'⟩ := hopened'
  obtain rfl := hsound.openedOnce hc hc'
  simpa [hc] using hc'

/-- A session opened without a token is unlocked only by its activation. -/
theorem Sound.activated_of_unlocked (hsound : l.Sound) {id : ι} {owner : ο}
    {first : Entry ο κ η} (hopened : l.Opened id first)
    (hlocked : first.token = none) (hunlocked : l.Unlocked id owner) :
    ∃ call new, l.history call = some (.activated id first.owner new) := by
  obtain ⟨entry, hopened', htoken⟩ | ⟨c, new, hc⟩ := hunlocked
  · obtain rfl := hsound.opened_unique hopened hopened'
    exact absurd hlocked htoken
  · obtain ⟨⟨entry, hopened', howner⟩, _⟩ := hsound.activated hc
    obtain rfl := hsound.opened_unique hopened hopened'
    exact ⟨c, new, howner ▸ hc⟩

end Openings

/-! ## Recording an event -/

section Record

variable [DecidableEq γ] {l : Ledger ι ο κ η γ}
  {call : γ} {event : Event ι ο κ η}
  {live' : ι → Option (Entry ο κ η)} {spent' : Set η}

/-- The ledger after `call` has recorded `event`. -/
def recorded (l : Ledger ι ο κ η γ) (call : γ) (event : Event ι ο κ η)
    (live' : ι → Option (Entry ο κ η)) (spent' : Set η) :
    Ledger ι ο κ η γ :=
  ⟨live', spent', Function.update l.history call (some event)⟩

theorem recorded_history {other : γ} {earlier : Event ι ο κ η}
    (hhistory : (l.recorded call event live' spent').history other =
      some earlier) :
    (other = call ∧ earlier = event) ∨
      (other ≠ call ∧ l.history other = some earlier) := by
  unfold recorded at hhistory
  by_cases hother : other = call
  · subst other
    simp only [Function.update_self, Option.some.injEq] at hhistory
    exact Or.inl ⟨rfl, hhistory.symm⟩
  · simp only [Function.update_of_ne hother] at hhistory
    exact Or.inr ⟨hother, hhistory⟩

theorem recorded_history_self :
    (l.recorded call event live' spent').history call = some event := by
  simp [recorded]

theorem recorded_history_of_some (hnone : l.history call = none)
    {other : γ} {earlier : Event ι ο κ η}
    (hhistory : l.history other = some earlier) :
    (l.recorded call event live' spent').history other = some earlier := by
  have hother : other ≠ call := by
    rintro rfl
    rw [hnone] at hhistory
    cases hhistory
  simpa [recorded, hother] using hhistory

/-- If at most one call recorded an event of some kind, and none did when the
new event is of that kind, then still at most one did. -/
theorem recorded_once {p : Event ι ο κ η → Prop}
    (hold : ∀ {c c' e e'}, l.history c = some e → p e →
      l.history c' = some e' → p e' → c = c')
    (hnew : p event → ∀ {c e}, l.history c = some e → ¬ p e)
    {c c' : γ} {e e' : Event ι ο κ η}
    (hc : (l.recorded call event live' spent').history c = some e)
    (hkind : p e)
    (hc' : (l.recorded call event live' spent').history c' = some e')
    (hkind' : p e') :
    c = c' := by
  obtain ⟨hcall, hevent⟩ | ⟨_, hkept⟩ := recorded_history hc
  · obtain ⟨hcall', _⟩ | ⟨_, hkept'⟩ := recorded_history hc'
    · exact hcall.trans hcall'.symm
    · exact absurd hkind' (hnew (hevent ▸ hkind) hkept')
  · obtain ⟨_, hevent'⟩ | ⟨_, hkept'⟩ := recorded_history hc'
    · exact absurd hkind (hnew (hevent' ▸ hkind') hkept)
    · exact hold hkept hkind hkept' hkind'

theorem Minted.recorded (hnone : l.history call = none) {token : η}
    (hminted : l.Minted token) :
    (l.recorded call event live' spent').Minted token := by
  obtain ⟨other, earlier, hhistory, htoken⟩ := hminted
  exact ⟨other, earlier, recorded_history_of_some hnone hhistory, htoken⟩

theorem Opened.recorded (hnone : l.history call = none) {id : ι}
    {entry : Entry ο κ η} (hopened : l.Opened id entry) :
    (l.recorded call event live' spent').Opened id entry := by
  obtain ⟨other, hhistory⟩ := hopened
  exact ⟨other, recorded_history_of_some hnone hhistory⟩

theorem Unlocked.recorded (hnone : l.history call = none) {id : ι} {owner : ο}
    (hunlocked : l.Unlocked id owner) :
    (l.recorded call event live' spent').Unlocked id owner := by
  obtain ⟨entry, hopened, htoken⟩ | ⟨other, new, hhistory⟩ := hunlocked
  · exact Or.inl ⟨entry, hopened.recorded hnone, htoken⟩
  · exact Or.inr ⟨other, new, recorded_history_of_some hnone hhistory⟩

theorem recorded_minted_self {token : η} (htoken : event.minted = some token) :
    (l.recorded call event live' spent').Minted token :=
  ⟨call, event, recorded_history_self, htoken⟩

end Record

section Effects

variable [DecidableEq ι] {l : Ledger ι ο κ η γ} {event : Event ι ο κ η}
  {live' : ι → Option (Entry ο κ η)} {spent' : Set η}

omit [DecidableEq ι] in
theorem Fresh.not_minted (hfresh : l.Fresh event) {token : η}
    (htoken : event.minted = some token) : ¬ l.Minted token := by
  rintro ⟨other, earlier, hhistory, hearlier⟩
  exact hfresh.minted htoken hhistory hearlier

/-- The one session an event touches. -/
def Event.target : Event ι ο κ η → ι
  | .opened id _ => id
  | .rotated id _ _ _ => id
  | .activated id _ _ => id

/-- The sessions after an event: the touched one holds the minted token. -/
theorem Effect.live_cases (heffect : l.Effect event live' spent')
    {id : ι} {entry : Entry ο κ η} (hlive : live' id = some entry) :
    (id = Event.target event ∧ entry.token = event.minted) ∨
      (id ≠ Event.target event ∧ l.live id = some entry) := by
  by_cases hid : id = Event.target event
  · refine Or.inl ⟨hid, ?_⟩
    subst id
    cases heffect with
    | opened id' first =>
        simp only [Event.target, Function.update_self,
          Option.some.injEq] at hlive
        subst first
        rfl
    | rotated new hold htoken =>
        simp only [Event.target, Function.update_self,
          Option.some.injEq] at hlive
        subst entry
        rfl
    | activated new hold htoken =>
        simp only [Event.target, Function.update_self,
          Option.some.injEq] at hlive
        subst entry
        rfl
  · refine Or.inr ⟨hid, ?_⟩
    cases heffect with
    | opened id' first =>
        rwa [Function.update_of_ne (by exact hid)] at hlive
    | rotated new hold htoken =>
        rwa [Function.update_of_ne (by exact hid)] at hlive
    | activated new hold htoken =>
        rwa [Function.update_of_ne (by exact hid)] at hlive

/-- A touched session that was there before keeps its owner and lifetime. -/
theorem Effect.live_origin (heffect : l.Effect event live' spent')
    {id : ι} {entry : Entry ο κ η} (hlive : live' id = some entry) :
    (event = .opened id entry) ∨
      ∃ before, l.live id = some before ∧ before.owner = entry.owner ∧
        before.cap = entry.cap := by
  by_cases hid : id = Event.target event
  · subst id
    cases heffect with
    | opened id' first =>
        simp only [Event.target, Function.update_self,
          Option.some.injEq] at hlive
        subst first
        exact Or.inl rfl
    | rotated new hold htoken =>
        simp only [Event.target, Function.update_self,
          Option.some.injEq] at hlive
        subst entry
        exact Or.inr ⟨_, hold, rfl, rfl⟩
    | activated new hold htoken =>
        simp only [Event.target, Function.update_self,
          Option.some.injEq] at hlive
        subst entry
        exact Or.inr ⟨_, hold, rfl, rfl⟩
  · obtain ⟨heq, _⟩ | ⟨_, hold⟩ := heffect.live_cases hlive
    · exact absurd heq hid
    · exact Or.inr ⟨entry, hold, rfl, rfl⟩

theorem Effect.spent_cases (heffect : l.Effect event live' spent')
    {token : η} (hspent : token ∈ spent') :
    token ∈ l.spent ∨
      ∃ id owner new, event = .rotated id owner token new := by
  cases heffect with
  | opened id entry => exact Or.inl hspent
  | activated new hlive htoken => exact Or.inl hspent
  | rotated new hlive htoken =>
      rcases hspent with rfl | hspent
      · exact Or.inr ⟨_, _, _, rfl⟩
      · exact Or.inl hspent

/-- The exchanged token was live in the session of the event. -/
theorem Effect.old_live {id : ι} {owner : ο} {old new : η}
    (heffect : l.Effect (.rotated id owner old new) live' spent') :
    ∃ entry, l.live id = some entry ∧ entry.owner = owner ∧
      entry.token = some old := by
  cases heffect with
  | rotated new hlive htoken => exact ⟨_, hlive, rfl, htoken⟩

theorem Effect.activated_live {id : ι} {owner : ο} {new : η}
    (heffect : l.Effect (.activated id owner new) live' spent') :
    ∃ entry, l.live id = some entry ∧ entry.owner = owner ∧
      entry.token = none := by
  cases heffect with
  | activated new hlive htoken => exact ⟨_, hlive, rfl, htoken⟩

/-- An exchanged token is live nowhere afterwards. -/
theorem Sound.old_dead (hsound : l.Sound) (hfresh : l.Fresh event)
    (heffect : l.Effect event live' spent') {id : ι} {owner : ο} {old new : η}
    (hevent : event = .rotated id owner old new) {id' : ι}
    {entry : Entry ο κ η} (hlive : live' id' = some entry) :
    entry.token ≠ some old := by
  subst event
  obtain ⟨before, hbefore, _, hold⟩ := heffect.old_live
  intro htoken
  obtain ⟨_, hminted⟩ | ⟨hne, hkept⟩ := heffect.live_cases hlive
  · rw [htoken] at hminted
    exact hfresh.not_minted hminted.symm (hsound.minted hbefore hold)
  · exact hne (hsound.distinct hkept hbefore htoken hold)

end Effects

section Runs

variable [DecidableEq ι] [DecidableEq γ] {l l' : Ledger ι ο κ η γ}
  {call : γ} {event : Event ι ο κ η}
  {live' : ι → Option (Entry ο κ η)} {spent' : Set η}

/-- The session of an exchange or an activation was unlocked by it or before
it. -/
theorem Sound.live_unlocked (hsound : l.Sound) (hnone : l.history call = none)
    (heffect : l.Effect event live' spent') {id : ι} {entry : Entry ο κ η}
    {token : η} (hlive : live' id = some entry)
    (htoken : entry.token = some token) :
    (l.recorded call event live' spent').Unlocked id entry.owner := by
  by_cases hid : id = Event.target event
  · subst id
    cases heffect with
    | opened id' first =>
        simp only [Event.target, Function.update_self,
          Option.some.injEq] at hlive
        subst first
        exact Or.inl ⟨entry, ⟨call, recorded_history_self⟩, by simp [htoken]⟩
    | rotated new hold hold' =>
        simp only [Event.target, Function.update_self,
          Option.some.injEq] at hlive
        subst entry
        exact (hsound.unlocked hold hold').recorded hnone
    | activated new hold hold' =>
        simp only [Event.target, Function.update_self,
          Option.some.injEq] at hlive
        subst entry
        exact Or.inr ⟨call, new, recorded_history_self⟩
  · obtain ⟨heq, _⟩ | ⟨_, hkept⟩ := heffect.live_cases hlive
    · exact absurd heq hid
    · exact (hsound.unlocked hkept htoken).recorded hnone

theorem Sound.record (hsound : l.Sound) (hnone : l.history call = none)
    (hfresh : l.Fresh event) (heffect : l.Effect event live' spent') :
    (l.recorded call event live' spent').Sound where
  opened := by
    intro id entry hlive
    obtain hevent | ⟨before, hbefore, howner, hcap⟩ := heffect.live_origin hlive
    · subst hevent
      exact ⟨entry, ⟨call, recorded_history_self⟩, rfl, rfl⟩
    · obtain ⟨first, hopened, howner', hcap'⟩ := hsound.opened hbefore
      exact ⟨first, hopened.recorded hnone, howner'.trans howner,
        hcap'.trans hcap⟩
  openedOnce := by
    intro id c c' entry entry' hc hc'
    refine recorded_once (p := fun e => ∃ x, e = .opened id x) ?_ ?_ hc
      ⟨_, rfl⟩ hc' ⟨_, rfl⟩
    · rintro c c' _ _ hc ⟨x, rfl⟩ hc' ⟨x', rfl⟩
      exact hsound.openedOnce hc hc'
    · rintro ⟨x, rfl⟩ c _ hc ⟨x', rfl⟩
      exact hfresh.openedId rfl hc rfl
  minted := by
    intro id entry token hlive htoken
    obtain ⟨_, hminted⟩ | ⟨_, hkept⟩ := heffect.live_cases hlive
    · exact recorded_minted_self (hminted ▸ htoken)
    · exact (hsound.minted hkept htoken).recorded hnone
  spentMinted := by
    intro token hspent
    obtain hspent | ⟨id, owner, new, rfl⟩ := heffect.spent_cases hspent
    · exact (hsound.spentMinted hspent).recorded hnone
    · obtain ⟨before, hbefore, _, hold⟩ := heffect.old_live
      exact (hsound.minted hbefore hold).recorded hnone
  distinct := by
    intro id id' entry entry' token hlive hlive' htoken htoken'
    obtain ⟨hid, hminted⟩ | ⟨_, hkept⟩ := heffect.live_cases hlive
    · obtain ⟨hid', _⟩ | ⟨_, hkept'⟩ := heffect.live_cases hlive'
      · exact hid.trans hid'.symm
      · exact absurd (hsound.minted hkept' htoken')
          (hfresh.not_minted (hminted ▸ htoken))
    · obtain ⟨_, hminted'⟩ | ⟨_, hkept'⟩ := heffect.live_cases hlive'
      · exact absurd (hsound.minted hkept htoken)
          (hfresh.not_minted (hminted' ▸ htoken'))
      · exact hsound.distinct hkept hkept' htoken htoken'
  apart := by
    intro id entry token hlive htoken hspent
    obtain hspent | ⟨id', owner, new, hevent⟩ := heffect.spent_cases hspent
    · obtain ⟨_, hminted⟩ | ⟨_, hkept⟩ := heffect.live_cases hlive
      · exact hfresh.not_minted (hminted ▸ htoken) (hsound.spentMinted hspent)
      · exact hsound.apart hkept htoken hspent
    · exact hsound.old_dead hfresh heffect hevent hlive htoken
  consumed := by
    intro c id owner old new hc
    obtain ⟨_, hevent⟩ | ⟨_, hc⟩ := recorded_history hc
    · subst hevent
      obtain ⟨before, hbefore, _, hold⟩ := heffect.old_live
      exact ⟨(hsound.minted hbefore hold).recorded hnone,
        fun hlive => hsound.old_dead hfresh heffect rfl hlive⟩
    · obtain ⟨hminted, hdead⟩ := hsound.consumed hc
      refine ⟨hminted.recorded hnone, ?_⟩
      intro id' entry hlive htoken
      obtain ⟨_, hnew⟩ | ⟨_, hkept⟩ := heffect.live_cases hlive
      · exact hfresh.not_minted (hnew ▸ htoken) hminted
      · exact hdead hkept htoken
  rotatedOnce := by
    intro c c' id id' owner owner' old new new' hc hc'
    refine recorded_once
      (p := fun e => ∃ i o n, e = .rotated i o old n) ?_ ?_ hc
      ⟨_, _, _, rfl⟩ hc' ⟨_, _, _, rfl⟩
    · rintro c c' _ _ hc ⟨i, o, n, rfl⟩ hc' ⟨i', o', n', rfl⟩
      exact hsound.rotatedOnce hc hc'
    · rintro ⟨i, o, n, rfl⟩ c _ hc ⟨i', o', n', rfl⟩
      obtain ⟨before, hbefore, _, hold⟩ := heffect.old_live
      exact (hsound.consumed hc).2 hbefore hold
  activated := by
    intro c id owner new hc
    obtain ⟨_, hevent⟩ | ⟨_, hc⟩ := recorded_history hc
    · subst hevent
      obtain ⟨before, hbefore, howner, _⟩ := heffect.activated_live
      obtain ⟨first, hopened, hfirst, _⟩ := hsound.opened hbefore
      refine ⟨⟨first, hopened.recorded hnone, hfirst.trans howner⟩, ?_⟩
      intro entry hlive
      obtain ⟨_, htoken⟩ | ⟨hne, _⟩ := heffect.live_cases hlive
      · simp [htoken, Event.minted]
      · exact absurd rfl hne
    · obtain ⟨⟨first, hopened, howner⟩, htoken⟩ := hsound.activated hc
      refine ⟨⟨first, hopened.recorded hnone, howner⟩, ?_⟩
      intro entry hlive hentry
      obtain ⟨hid, hminted⟩ | ⟨_, hkept⟩ := heffect.live_cases hlive
      · cases event with
        | opened id' opening =>
            obtain ⟨other, hhistory⟩ := hopened
            rw [hid] at hhistory
            exact hfresh.openedId rfl hhistory rfl
        | rotated id' owner' old' new' =>
            rw [hentry] at hminted
            cases hminted
        | activated id' owner' new' =>
            rw [hentry] at hminted
            cases hminted
      · exact htoken hkept hentry
  activatedOnce := by
    intro c c' id owner owner' new new' hc hc'
    refine recorded_once (p := fun e => ∃ o n, e = .activated id o n) ?_ ?_
      hc ⟨_, _, rfl⟩ hc' ⟨_, _, rfl⟩
    · rintro c c' _ _ hc ⟨o, n, rfl⟩ hc' ⟨o', n', rfl⟩
      exact hsound.activatedOnce hc hc'
    · rintro ⟨o, n, rfl⟩ c _ hc ⟨o', n', rfl⟩
      obtain ⟨before, hbefore, _, hold⟩ := heffect.activated_live
      exact (hsound.activated hc).2 hbefore hold
  unlocked := fun hlive htoken =>
    hsound.live_unlocked hnone heffect hlive htoken
  rotatedUnlocked := by
    intro c id owner old new hc
    obtain ⟨_, hevent⟩ | ⟨_, hc⟩ := recorded_history hc
    · subst hevent
      obtain ⟨before, hbefore, howner, hold⟩ := heffect.old_live
      rw [← howner]
      exact (hsound.unlocked hbefore hold).recorded hnone
    · exact (hsound.rotatedUnlocked hc).recorded hnone

theorem Sound.step (hsound : l.Sound) (hstep : l.Step l') : l'.Sound := by
  cases hstep with
  | prune hpruned => exact hpruned.sound hsound
  | record call event hpruned hnone hfresh heffect =>
      exact (hpruned.sound hsound).record hnone hfresh heffect

/-- A recorded event stays recorded. -/
theorem Step.history_of_some (hstep : l.Step l') {other : γ}
    {earlier : Event ι ο κ η} (hhistory : l.history other = some earlier) :
    l'.history other = some earlier := by
  cases hstep with
  | prune hpruned => rwa [hpruned.history]
  | record call event hpruned hnone hfresh heffect =>
      rw [← hpruned.history] at hhistory
      exact recorded_history_of_some hnone hhistory

def Steps : Ledger ι ο κ η γ → Ledger ι ο κ η γ → Prop :=
  Relation.ReflTransGen Step

theorem Sound.steps (hsound : l.Sound) (hsteps : l.Steps l') : l'.Sound := by
  induction hsteps with
  | refl => exact hsound
  | tail _ hstep ih => exact ih.step hstep

theorem Steps.history_of_some (hsteps : l.Steps l') {other : γ}
    {earlier : Event ι ο κ η} (hhistory : l.history other = some earlier) :
    l'.history other = some earlier := by
  induction hsteps with
  | refl => exact hhistory
  | tail _ hstep ih => exact hstep.history_of_some ih

/-- The step that records an activation leaves its token live. -/
theorem Step.activated_live (hstep : l.Step l') {c : γ} {id : ι} {owner : ο}
    {new : η} (hc : l'.history c = some (.activated id owner new))
    (hbefore : l.history c ≠ some (.activated id owner new)) :
    ∃ entry, l'.live id = some entry ∧ entry.owner = owner ∧
      entry.token = some new := by
  cases hstep with
  | prune hpruned =>
      rw [hpruned.history] at hc
      exact absurd hc hbefore
  | record call event hpruned hnone hfresh heffect =>
      obtain ⟨_, hevent⟩ | ⟨_, hold⟩ := recorded_history hc
      · subst hevent
        cases heffect with
        | activated new hlive htoken =>
            exact ⟨_, Function.update_self .., rfl, rfl⟩
      · rw [hpruned.history] at hold
        exact absurd hold hbefore

/-- Owner and lifetime of a session never change. -/
theorem Sound.identity (hsound : l.Sound) (hsteps : l.Steps l') {id : ι}
    {entry entry' : Entry ο κ η} (hlive : l.live id = some entry)
    (hlive' : l'.live id = some entry') :
    entry'.owner = entry.owner ∧ entry'.cap = entry.cap := by
  obtain ⟨first, ⟨c, hc⟩, howner, hcap⟩ := hsound.opened hlive
  obtain ⟨first', hopened', howner', hcap'⟩ :=
    (hsound.steps hsteps).opened hlive'
  obtain rfl := (hsound.steps hsteps).opened_unique
    ⟨c, hsteps.history_of_some hc⟩ hopened'
  exact ⟨howner'.symm.trans howner, hcap'.symm.trans hcap⟩

end Runs

theorem initial_sound : (initial : Ledger ι ο κ η γ).Sound := by
  constructor <;> simp [initial]

end Ledger

end TokenLedger
