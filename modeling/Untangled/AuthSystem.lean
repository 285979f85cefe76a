import Untangled.Login
import Untangled.TokenLedger

/-!
# The concurrent auth service

Any number of calls of the session repository, the cleanup timer, the
change-password transaction and the login run over one database, interleaved
statement by statement, and any of them may be interrupted at any point.

`ledgerOf` forgets the statements: it keeps the sessions, the consumed tokens
and what each call has achieved.  The ledger is what the component is for.
-/

namespace Untangled.Auth

open ReadCommitted TokenLedger

inductive Call
  | create (session : NewUserSession) (clock : ℤ)
  | attemptRotate (args : AttemptRotateArgs)
  | invalidate (userId sessionId : Uuid)
  | sessionCleanup (now : ℤ)
  | changePassword (args : ChangePasswordArgs)
  | login (args : LoginArgs)

def Call.start : Call → AuthProg Reply
  | .create session clock => createSession session clock
  | .attemptRotate args => Auth.attemptRotate args
  | .invalidate userId sessionId => invalidateSession userId sessionId
  | .sessionCleanup now => runSessionCleanup now
  | .changePassword args => executeChangePassword args
  | .login args => handleLogin args

/-- The session id a call draws. -/
def Call.mintedId : Call → Option Uuid
  | .create session _ => some session.id
  | .login args => some args.sid
  | _ => none

/-- The HMAC of the refresh token a call mints. -/
def Call.mintedHmac : Call → Option String
  | .create session _ => session.refreshHmac
  | .attemptRotate args => some args.newHmac
  | .changePassword args => some args.newHmac
  | .login args => some args.newHmac
  | _ => none

abbrev AuthProc := Proc AuthDb RowKey RowWrite AuthStmt AuthRes Call Reply

abbrev AuthSystem := System AuthDb RowKey RowWrite AuthStmt AuthRes Call Reply

abbrev AuthStep := System.Step authSchema Call.start

/-- What one call mints, the other does not. -/
structure Call.Apart (c c' : Call) : Prop where
  id : ∀ {id}, c.mintedId = some id → c'.mintedId ≠ some id
  hmac : ∀ {hmac}, c.mintedHmac = some hmac → c'.mintedHmac ≠ some hmac

theorem Call.Apart.symm {c c' : Call} (hapart : c.Apart c') : c'.Apart c where
  id := fun hc' hc => hapart.id hc hc'
  hmac := fun hc' hc => hapart.hmac hc hc'

instance (c c' : Call) : Decidable (c.Apart c') :=
  decidable_of_iff
    ((∀ id ∈ c.mintedId, c'.mintedId ≠ some id) ∧
      ∀ hmac ∈ c.mintedHmac, c'.mintedHmac ≠ some hmac)
    ⟨fun h => ⟨fun hid => h.1 _ hid, fun hhmac => h.2 _ hhmac⟩,
      fun h => ⟨fun _ hid => h.id hid, fun _ hhmac => h.hmac hhmac⟩⟩

/-- Session ids and refresh tokens are drawn at random: a new call never mints
what an earlier one did. -/
def MintsFresh (sys : AuthSystem) : Label Call → Prop
  | .spawn call => ∀ p ∈ sys.procs, call.Apart p.call
  | _ => True

instance (sys : AuthSystem) (label : Label Call) :
    Decidable (MintsFresh sys label) :=
  match label with
  | .spawn call => inferInstanceAs (Decidable (∀ p ∈ sys.procs, call.Apart p.call))
  | .advance _ => .isTrue trivial
  | .interrupt _ => .isTrue trivial
  | .deadlock _ => .isTrue trivial

/-- No two calls mint the same session id or the same token. -/
def CallsApart (sys : AuthSystem) : Prop :=
  ∀ ⦃i j : ℕ⦄ ⦃p q : AuthProc⦄, i ≠ j → sys.procs[i]? = some p →
    sys.procs[j]? = some q → p.call.Apart q.call

theorem CallsApart.step {sys sys' : AuthSystem} {label : Label Call}
    (hapart : CallsApart sys) (hfresh : MintsFresh sys label)
    (hstep : AuthStep sys label sys') : CallsApart sys' := by
  intro j k q r hjk hj hk
  rcases hstep.spawn_or_change with
    ⟨call, rfl, rfl⟩ | ⟨i, p, db', p', hi, hchange, rfl⟩
  · rcases System.getElem?_append_eq hj with ⟨hjlen, rfl⟩ | hj
    · rcases System.getElem?_append_eq hk with ⟨hklen, _⟩ | hk
      · exact absurd (hjlen.trans hklen.symm) hjk
      · exact hfresh r (List.mem_of_getElem? hk)
    · rcases System.getElem?_append_eq hk with ⟨_, rfl⟩ | hk
      · exact (hfresh q (List.mem_of_getElem? hj)).symm
      · exact hapart hjk hj hk
  · rcases System.getElem?_set_eq hi hj with ⟨hji, rfl⟩ | ⟨_, hj⟩
    · rcases System.getElem?_set_eq hi hk with ⟨hki, _⟩ | ⟨_, hk⟩
      · exact absurd (hji.trans hki.symm) hjk
      · rw [hchange.call_eq]
        exact hapart (hji ▸ hjk) hi hk
    · rcases System.getElem?_set_eq hi hk with ⟨hki, hr⟩ | ⟨_, hk⟩
      · rw [hr, hchange.call_eq]
        exact hapart (hki ▸ hjk) hj hi
      · exact hapart hjk hj hk

/-- No call has been made and no session is stored. -/
structure Initial (sys : AuthSystem) : Prop where
  procs : sys.procs = []
  sessions : sys.db.sessions = Table.empty
  used : sys.db.used = Table.empty

/-- Every state of every interleaving. -/
def Reachable (sys : AuthSystem) : Prop :=
  ∃ start, Initial start ∧ System.Steps authSchema Call.start MintsFresh start sys

/-- Call `i` was `call` and has returned `reply`. -/
def Returned (sys : AuthSystem) (i : ℕ) (call : Call) (reply : Reply) : Prop :=
  ∃ p : AuthProc, sys.procs[i]? = some p ∧ p.call = call ∧ p.prog = .ret reply

theorem Returned.step {sys sys' : AuthSystem} {label : Label Call} {i : ℕ}
    {call : Call} {reply : Reply} (hreturned : Returned sys i call reply)
    (hstep : AuthStep sys label sys') : Returned sys' i call reply := by
  obtain ⟨p, hi, hcall, hprog⟩ := hreturned
  exact ⟨p, hstep.ended hi (by simp [Proc.running, hprog]), hcall, hprog⟩

theorem Returned.unique {sys : AuthSystem} {i : ℕ} {call call' : Call}
    {reply reply' : Reply} (hreturned : Returned sys i call reply)
    (hreturned' : Returned sys i call' reply') :
    call' = call ∧ reply' = reply := by
  obtain ⟨p, hi, rfl, hprog⟩ := hreturned
  obtain ⟨q, hi', rfl, hprog'⟩ := hreturned'
  obtain rfl : p = q := by simpa [hi] using hi'
  exact ⟨rfl, by simpa [hprog] using hprog'.symm⟩

/-! ## The ledger of a state -/

abbrev SessionEntry := Entry Uuid ℤ String
abbrev SessionEvent := Event Uuid Uuid ℤ String
abbrev SessionLedger := Ledger Uuid Uuid ℤ String ℕ

def SessionRow.entry (r : SessionRow) : SessionEntry where
  owner := r.userId
  cap := r.sessionExpiresAt
  token := r.refreshHmac

@[simp] theorem SessionRow.entry_owner (r : SessionRow) :
    r.entry.owner = r.userId := rfl
@[simp] theorem SessionRow.entry_cap (r : SessionRow) :
    r.entry.cap = r.sessionExpiresAt := rfl
@[simp] theorem SessionRow.entry_token (r : SessionRow) :
    r.entry.token = r.refreshHmac := rfl

/-- What a call has achieved when it returns. -/
def Call.event : Call → Reply → Option SessionEvent
  | .create session clock, .created =>
      some (.opened session.id (session.row clock).entry)
  | .login args, .login (.success user mustChange _) =>
      some (.opened args.sid (args.sessionRow user mustChange).entry)
  | .attemptRotate args, .rotate (.rotated _ _) =>
      some (.rotated args.sessionId args.userId args.oldHmac args.newHmac)
  | .changePassword args, .changed (.ok (.firstRefresh _ _) _) =>
      args.sessionId.map fun sid => .activated sid args.userId args.newHmac
  | _, _ => none

def eventOf (p : AuthProc) : Option SessionEvent :=
  match p.prog with
  | .ret reply => p.call.event reply
  | _ => none

def sessionWithId (db : AuthDb) (id : Uuid) : Option SessionRow :=
  db.sessions.rows.find? fun r => decide (r.id = id)

def liveOf (db : AuthDb) (id : Uuid) : Option SessionEntry :=
  (sessionWithId db id).map SessionRow.entry

def spentOf (db : AuthDb) : Set String :=
  {hmac | ∃ u ∈ db.used, u.refreshHmac = hmac}

def historyOf (procs : List AuthProc) (i : ℕ) : Option SessionEvent :=
  procs[i]?.bind eventOf

def ledgerOf (sys : AuthSystem) : SessionLedger where
  live := liveOf sys.db
  spent := spentOf sys.db
  history := historyOf sys.procs

theorem sessionWithId_eq_some {db : AuthDb} {id : Uuid} {r : SessionRow} :
    sessionWithId db id = some r ↔ r ∈ db.sessions ∧ r.id = id := by
  constructor
  · intro hfind
    exact ⟨List.mem_of_find?_eq_some hfind,
      by simpa using List.find?_some hfind⟩
  · rintro ⟨hmem, hid⟩
    cases hfind : sessionWithId db id with
    | none =>
        have hnone := List.find?_eq_none.mp hfind r hmem
        exact absurd hid (by simpa using hnone)
    | some found =>
        have hfound : found ∈ db.sessions := List.mem_of_find?_eq_some hfind
        have hfoundId : found.id = id := by simpa using List.find?_some hfind
        exact congrArg some
          (Table.eq_of_key_eq hfound hmem (hfoundId.trans hid.symm))

theorem liveOf_eq_some {db : AuthDb} {id : Uuid} {entry : SessionEntry} :
    liveOf db id = some entry ↔
      ∃ r ∈ db.sessions, r.id = id ∧ r.entry = entry := by
  simp only [liveOf, Option.map_eq_some_iff, sessionWithId_eq_some, and_assoc]

theorem liveOf_of_mem {db : AuthDb} {r : SessionRow} (hr : r ∈ db.sessions) :
    liveOf db r.id = some r.entry :=
  liveOf_eq_some.mpr ⟨r, hr, rfl, rfl⟩

theorem historyOf_eq_some {procs : List AuthProc} {i : ℕ}
    {event : SessionEvent} :
    historyOf procs i = some event ↔
      ∃ p reply, procs[i]? = some p ∧ p.prog = .ret reply ∧
        p.call.event reply = some event := by
  simp only [historyOf, Option.bind_eq_some_iff, eventOf]
  constructor
  · rintro ⟨p, hp, hevent⟩
    cases hprog : p.prog with
    | ret reply => exact ⟨p, reply, hp, hprog, by simpa [hprog] using hevent⟩
    | _ => simp [hprog] at hevent
  · rintro ⟨p, reply, hp, hprog, hevent⟩
    exact ⟨p, hp, by simpa [hprog] using hevent⟩

theorem Returned.history {sys : AuthSystem} {i : ℕ} {call : Call}
    {reply : Reply} {event : SessionEvent} (hreturned : Returned sys i call reply)
    (hevent : call.event reply = some event) :
    (ledgerOf sys).history i = some event := by
  obtain ⟨p, hi, rfl, hprog⟩ := hreturned
  exact historyOf_eq_some.mpr ⟨p, reply, hi, hprog, hevent⟩

/-- Storing a row changes one entry of the ledger. -/
theorem liveOf_put {db db' : AuthDb} {row : SessionRow}
    (hput : db'.sessions = db.sessions.put row) :
    liveOf db' = Function.update (liveOf db) row.id (some row.entry) := by
  funext id
  apply Option.ext
  intro entry
  by_cases hid : id = row.id
  · subst id
    rw [Function.update_self, liveOf_eq_some, hput]
    constructor
    · rintro ⟨r, hr, hrid, rfl⟩
      obtain rfl | ⟨_, hne⟩ := Table.mem_put.mp hr
      · rfl
      · exact absurd hrid hne
    · rintro ⟨⟩
      exact ⟨row, Table.mem_put.mpr (Or.inl rfl), rfl, rfl⟩
  · rw [Function.update_of_ne hid, liveOf_eq_some, liveOf_eq_some, hput]
    constructor
    · rintro ⟨r, hr, rfl, rfl⟩
      obtain rfl | ⟨hold, _⟩ := Table.mem_put.mp hr
      · exact absurd rfl hid
      · exact ⟨r, hold, rfl, rfl⟩
    · rintro ⟨r, hr, rfl, rfl⟩
      exact ⟨r, Table.mem_put.mpr (Or.inr ⟨hr, hid⟩), rfl, rfl⟩

/-- Storing a used row adds its token to those of the rows with other ids. -/
theorem spentOf_put {db db' db₁ : AuthDb} {u : UsedRow}
    (hput : db'.used = db.used.put u) (herase : db₁.used = db.used.erase u.id) :
    spentOf db' = insert u.refreshHmac (spentOf db₁) := by
  ext hmac
  simp only [spentOf, Set.mem_ofPred_eq, Set.mem_insert_iff, hput, herase]
  constructor
  · rintro ⟨x, hx, rfl⟩
    obtain rfl | hold := Table.mem_put.mp hx
    · exact Or.inl rfl
    · exact Or.inr ⟨x, Table.mem_erase.mpr hold, rfl⟩
  · rintro (rfl | ⟨x, hx, rfl⟩)
    · exact ⟨u, Table.mem_put.mpr (Or.inl rfl), rfl⟩
    · exact ⟨x, Table.mem_put.mpr (Or.inr (Table.mem_erase.mp hx)), rfl⟩

theorem historyOf_set {procs : List AuthProc} {i : ℕ} {p : AuthProc}
    (hi : i < procs.length) :
    historyOf (procs.set i p) =
      Function.update (historyOf procs) i (eventOf p) := by
  funext j
  unfold historyOf
  by_cases hj : j = i
  · subst j
    simp [hi]
  · rw [Function.update_of_ne hj, List.getElem?_set_ne (Ne.symm hj)]

theorem historyOf_append {procs : List AuthProc} {p : AuthProc}
    (hevent : eventOf p = none) :
    historyOf (procs ++ [p]) = historyOf procs := by
  funext j
  unfold historyOf
  rw [List.getElem?_append]
  by_cases hj : j < procs.length
  · rw [if_pos hj]
  · rw [if_neg hj, List.getElem?_eq_none (by omega : procs.length ≤ j)]
    cases hq : [p][j - procs.length]? with
    | none => rfl
    | some q =>
        obtain rfl : q = p := by
          simpa using List.mem_of_getElem? hq
        exact hevent

/-- What a call achieves it mints itself. -/
theorem Call.event_minted {call : Call} {reply : Reply} {event : SessionEvent}
    {hmac : String} (hevent : call.event reply = some event)
    (hminted : event.minted = some hmac) :
    call.mintedHmac = some hmac := by
  unfold Call.event at hevent
  split at hevent
  · obtain rfl := Option.some.inj hevent
    exact hminted
  · rename_i args user mustChange signed
    obtain rfl := Option.some.inj hevent
    cases mustChange with
    | true => cases hminted
    | false => exact hminted
  · obtain rfl := Option.some.inj hevent
    exact hminted
  · obtain ⟨sid, _, rfl⟩ := Option.map_eq_some_iff.mp hevent
    exact hminted
  · cases hevent

theorem Call.event_openedId {call : Call} {reply : Reply}
    {event : SessionEvent} {id : Uuid} (hevent : call.event reply = some event)
    (hopened : event.openedId = some id) :
    call.mintedId = some id := by
  unfold Call.event at hevent
  split at hevent
  · obtain rfl := Option.some.inj hevent
    exact hopened
  · obtain rfl := Option.some.inj hevent
    exact hopened
  · obtain rfl := Option.some.inj hevent
    cases hopened
  · obtain ⟨sid, _, rfl⟩ := Option.map_eq_some_iff.mp hevent
    cases hopened
  · cases hevent

end Untangled.Auth
