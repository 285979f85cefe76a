import Untangled.RedisServer

/-!
# Optimistic transactions of a Redis server

Transactions of the form `WATCH`, reads, `MULTI`, writes, `EXEC`.  `EXEC` applies
the queued writes if no watched key has changed since `WATCH`, and nothing
otherwise.  A connection runs one transaction at a time; the commands of different
connections interleave in any order.
-/

namespace Redis

open ReadCommitted Untangled

/-! ## Transactions -/

/-- What a transaction does between `WATCH` and `EXEC`: it reads keys and the
clock, and ends with a result and the writes that it queues. -/
inductive Body (ρ : Type)
  | read (cmd : ReadCmd) (next : ReadReply cmd → Body ρ)
  | now (next : ℤ → Body ρ)
  | done (result : ρ) (queue : List WriteCmd)

structure Txn (ρ : Type) where
  watch : List String
  body : Body ρ

/-- `body` ends with `result` and `queue` after reading the clock as `clocks`,
where `Sees` says which replies its reads may get. -/
def Body.Yields {ρ : Type} (Sees : (cmd : ReadCmd) → ReadReply cmd → Prop) :
    Body ρ → List ℤ → ρ → List WriteCmd → Prop
  | .read cmd next, clocks, result, queue =>
      ∃ reply, Sees cmd reply ∧ (next reply).Yields Sees clocks result queue
  | .now next, clocks, result, queue =>
      ∃ nowMs later, clocks = nowMs :: later ∧ (next nowMs).Yields Sees later result queue
  | .done result' queue', clocks, result, queue =>
      clocks = [] ∧ result' = result ∧ queue' = queue

/-- Replies that agree with `db` on the watched keys. -/
def SeesWatched (watch : List String) (db : Db) (cmd : ReadCmd) (reply : ReadReply cmd) : Prop :=
  cmd.name ∈ watch → cmd.run (db.get cmd.name) = some reply

/-- A transaction without company, reading the clock as `nowMs` throughout. -/
def Body.alone {ρ : Type} (db : Db) (nowMs : ℤ) : Body ρ → Option (ρ × List WriteCmd)
  | .read cmd next => (cmd.run (db.get cmd.name)).bind fun reply => (next reply).alone db nowMs
  | .now next => (next nowMs).alone db nowMs
  | .done result queue => some (result, queue)

theorem Body.alone_yields
    {ρ : Type} {body : Body ρ} {db : Db} {nowMs : ℤ} {watch : List String} {result : ρ}
    {queue : List WriteCmd}
    (h : body.alone db nowMs = some (result, queue)) :
    ∃ clocks, (∀ t ∈ clocks, t = nowMs) ∧
      body.Yields (SeesWatched watch db) clocks result queue := by
  induction body with
  | read cmd next ih =>
      rcases Option.bind_eq_some_iff.mp h with ⟨reply, hreply, hnext⟩
      rcases ih reply hnext with ⟨clocks, hclocks, hyields⟩
      exact ⟨clocks, hclocks, reply, fun _ => hreply, hyields⟩
  | now next ih =>
      rcases ih nowMs h with ⟨clocks, hclocks, hyields⟩
      refine ⟨nowMs :: clocks, ?_, nowMs, clocks, rfl, hyields⟩
      intro t ht
      rcases List.mem_cons.mp ht with hfirst | hlater
      · exact hfirst
      · exact hclocks t hlater
  | done result' queue' =>
      simp only [Body.alone, Option.some.injEq, Prod.mk.injEq] at h
      exact ⟨[], by simp, rfl, h.1, h.2⟩

/-! ## Connections -/

inductive Connection (τ ρ : Type)
  | idle
  | watching (op : τ) (watched : List (String × ℕ)) (clocks : List ℤ) (rest : Body ρ)

/-- A transaction that was executed, and the clock as it read it. -/
structure Committed (τ ρ : Type) where
  op : τ
  clocks : List ℤ
  result : ρ
deriving DecidableEq

/-- `versions` counts the changes of each key, `changedAt` tells the clock at the
last one. -/
structure Server (τ ρ : Type) where
  db : Db
  versions : String → ℕ
  changedAt : String → ℤ
  nowMs : ℤ
  connections : List (Connection τ ρ)
  log : List (Committed τ ρ)

inductive Label (τ : Type)
  | connect
  | tick (nowMs : ℤ)
  | watch (i : ℕ) (op : τ)
  | advance (i : ℕ)
  | abandon (i : ℕ)
deriving DecidableEq

namespace Server

variable {τ ρ : Type}

def start (db : Db) (nowMs : ℤ) : Server τ ρ where
  db := db
  versions := fun _ => 0
  changedAt := fun _ => nowMs
  nowMs := nowMs
  connections := []
  log := []

/-- No watched key has changed since it was watched. -/
def intact (srv : Server τ ρ) (watched : List (String × ℕ)) : Bool :=
  watched.all fun entry => srv.versions entry.1 == entry.2

def setConnection (srv : Server τ ρ) (i : ℕ) (c : Connection τ ρ) : Server τ ρ :=
  { srv with connections := srv.connections.set i c }

/-- `EXEC` with `queue`, when nothing stands against it. -/
def commit (srv : Server τ ρ) (i : ℕ) (entry : Committed τ ρ) (queue : List WriteCmd) :
    Server τ ρ where
  db := applyAll queue srv.db
  versions := fun name =>
    if (applyAll queue srv.db).get name = srv.db.get name then srv.versions name
    else srv.versions name + 1
  changedAt := fun name =>
    if (applyAll queue srv.db).get name = srv.db.get name then srv.changedAt name
    else srv.nowMs
  nowMs := srv.nowMs
  connections := srv.connections.set i .idle
  log := srv.log ++ [entry]

@[simp] theorem commit_db
    {srv : Server τ ρ} {i : ℕ} {entry : Committed τ ρ} {queue : List WriteCmd} :
    (srv.commit i entry queue).db = applyAll queue srv.db := rfl

@[simp] theorem commit_log
    {srv : Server τ ρ} {i : ℕ} {entry : Committed τ ρ} {queue : List WriteCmd} :
    (srv.commit i entry queue).log = srv.log ++ [entry] := rfl

/-- The next command of a connection inside a transaction. -/
def advance (srv : Server τ ρ) (i : ℕ) (op : τ) (watched : List (String × ℕ))
    (clocks : List ℤ) : Body ρ → Server τ ρ
  | .read cmd next =>
      match cmd.run (srv.db.get cmd.name) with
      | some reply => srv.setConnection i (.watching op watched clocks (next reply))
      | none => srv.setConnection i .idle
  | .now next =>
      srv.setConnection i (.watching op watched (clocks ++ [srv.nowMs]) (next srv.nowMs))
  | .done result queue =>
      if srv.intact watched then srv.commit i ⟨op, clocks, result⟩ queue
      else srv.setConnection i .idle

/-- The clock never goes back.  A transaction may be given up at any time, as
when the connection is lost; one that was given up or came to nothing may be
tried again. -/
def next (prog : τ → Txn ρ) (srv : Server τ ρ) : Label τ → Option (Server τ ρ)
  | .connect => some { srv with connections := srv.connections ++ [.idle] }
  | .tick nowMs => if srv.nowMs ≤ nowMs then some { srv with nowMs := nowMs } else none
  | .watch i op =>
      match srv.connections[i]? with
      | some .idle =>
          some (srv.setConnection i (.watching op
            ((prog op).watch.map fun name => (name, srv.versions name)) [] (prog op).body))
      | _ => none
  | .advance i =>
      match srv.connections[i]? with
      | some (.watching op watched clocks rest) => some (srv.advance i op watched clocks rest)
      | _ => none
  | .abandon i =>
      match srv.connections[i]? with
      | some (.watching _ _ _ _) => some (srv.setConnection i .idle)
      | _ => none

inductive Reachable (prog : τ → Txn ρ) (first : Server τ ρ) : Server τ ρ → Prop
  | start : Reachable prog first first
  | step {srv srv' : Server τ ρ} {label : Label τ} :
      Reachable prog first srv → srv.next prog label = some srv' →
      Reachable prog first srv'

def performAll (prog : τ → Txn ρ) (srv : Server τ ρ) (labels : List (Label τ)) :
    Option (Server τ ρ) :=
  labels.foldlM (fun srv label => srv.next prog label) srv

variable {prog : τ → Txn ρ} {first srv srv' : Server τ ρ} {label : Label τ}

theorem reachable_of_performAll
    {labels : List (Label τ)}
    (h : first.performAll prog labels = some srv) :
    Reachable prog first srv := by
  induction labels using List.reverseRecOn generalizing srv with
  | nil =>
      simp only [performAll, List.foldlM_nil, Option.pure_def, Option.some.injEq] at h
      subst h
      exact .start
  | append_singleton labels label ih =>
      simp only [performAll, List.foldlM_append, List.foldlM_cons, List.foldlM_nil,
        Option.bind_eq_bind, Option.bind_eq_some_iff] at h
      rcases h with ⟨before, hbefore, after, hafter, hsrv⟩
      simp only [Option.pure_def, Option.some.injEq] at hsrv
      subst hsrv
      exact .step (ih hbefore) hafter

/-! ## A committed transaction has read what it overwrites -/

/-- Nothing but the connections and the clock has changed. -/
structure Quiet (srv srv' : Server τ ρ) : Prop where
  db : srv'.db = srv.db
  versions : srv'.versions = srv.versions
  changedAt : srv'.changedAt = srv.changedAt
  nowMs : srv.nowMs ≤ srv'.nowMs
  log : srv'.log = srv.log

theorem quiet_setConnection
    {i : ℕ} {c : Connection τ ρ} :
    Quiet srv (srv.setConnection i c) := by
  constructor
  · rfl
  · rfl
  · rfl
  · exact le_refl srv.nowMs
  · rfl

/-- Every step is quiet or commits a transaction whose watched keys are intact. -/
theorem next_cases
    (h : srv.next prog label = some srv') :
    Quiet srv srv' ∨
    ∃ i op watched clocks result queue,
      srv.connections[i]? = some (.watching op watched clocks (.done result queue)) ∧
      srv.intact watched = true ∧ srv' = srv.commit i ⟨op, clocks, result⟩ queue := by
  cases label with
  | connect =>
      simp only [next, Option.some.injEq] at h
      subst h
      exact Or.inl ⟨rfl, rfl, rfl, le_refl _, rfl⟩
  | tick nowMs =>
      simp only [next] at h
      split at h
      · rename_i hclock
        simp only [Option.some.injEq] at h
        subst h
        exact Or.inl ⟨rfl, rfl, rfl, hclock, rfl⟩
      · exact absurd h (by simp)
  | watch i op =>
      simp only [next] at h
      split at h
      · simp only [Option.some.injEq] at h
        subst h
        exact Or.inl quiet_setConnection
      · exact absurd h (by simp)
  | advance i =>
      simp only [next] at h
      split at h
      · rename_i op watched clocks rest hconnection
        simp only [Option.some.injEq] at h
        subst h
        cases rest with
        | read cmd next =>
            left
            simp only [advance]
            split
            · exact quiet_setConnection
            · exact quiet_setConnection
        | now next => exact Or.inl quiet_setConnection
        | done result queue =>
            simp only [advance]
            split
            · rename_i hintact
              exact Or.inr ⟨i, op, watched, clocks, result, queue, hconnection, hintact, rfl⟩
            · exact Or.inl quiet_setConnection
      · exact absurd h (by simp)
  | abandon i =>
      simp only [next] at h
      split at h
      · simp only [Option.some.injEq] at h
        subst h
        exact Or.inl quiet_setConnection
      · exact absurd h (by simp)

/-- A transaction under way: as long as its watched keys are intact, its reads of
them still hold, and they have not changed since it read the clock. -/
structure Watching (prog : τ → Txn ρ) (srv : Server τ ρ) (op : τ) (watched : List (String × ℕ))
    (clocks : List ℤ) (rest : Body ρ) : Prop where
  names : watched.map Prod.fst = (prog op).watch
  past : ∀ entry ∈ watched, entry.2 ≤ srv.versions entry.1
  clock : ∀ t ∈ clocks, t ≤ srv.nowMs
  since : srv.intact watched = true →
    ∀ t ∈ clocks, ∀ name ∈ (prog op).watch, srv.changedAt name ≤ t
  reads : srv.intact watched = true → ∀ later result queue,
    rest.Yields (SeesWatched (prog op).watch srv.db) later result queue →
    (prog op).body.Yields (SeesWatched (prog op).watch srv.db) (clocks ++ later) result queue

structure Consistent (prog : τ → Txn ρ) (srv : Server τ ρ) : Prop where
  changed : ∀ name, srv.changedAt name ≤ srv.nowMs
  watching : ∀ op watched clocks rest, .watching op watched clocks rest ∈ srv.connections →
    Watching prog srv op watched clocks rest

theorem intact_congr
    {watched : List (String × ℕ)}
    (h : srv'.versions = srv.versions) :
    srv'.intact watched = srv.intact watched := by
  unfold intact
  rw [h]

section Kept

variable {op : τ} {watched : List (String × ℕ)} {clocks : List ℤ} {rest : Body ρ}

theorem Watching.quiet
    (h : Watching prog srv op watched clocks rest)
    (hquiet : Quiet srv srv') :
    Watching prog srv' op watched clocks rest := by
  constructor
  · exact h.names
  · rw [hquiet.versions]
    exact h.past
  · intro t ht
    exact (h.clock t ht).trans hquiet.nowMs
  · rw [intact_congr hquiet.versions, hquiet.changedAt]
    exact h.since
  · rw [intact_congr hquiet.versions, hquiet.db]
    exact h.reads

theorem Yields.mono
    {body : Body ρ} {Sees Sees' : (cmd : ReadCmd) → ReadReply cmd → Prop} {result : ρ}
    {queue : List WriteCmd}
    (hsees : ∀ cmd reply, Sees cmd reply → Sees' cmd reply)
    (h : body.Yields Sees clocks result queue) :
    body.Yields Sees' clocks result queue := by
  induction body generalizing clocks with
  | read cmd next ih =>
      rcases h with ⟨reply, hreply, hnext⟩
      exact ⟨reply, hsees cmd reply hreply, ih reply hnext⟩
  | now next ih =>
      rcases h with ⟨nowMs, later, hclocks, hnext⟩
      exact ⟨nowMs, later, hclocks, ih nowMs hnext⟩
  | done result' queue' => exact h

/-- A commit that leaves the watch of another transaction intact has changed none
of the keys it watches. -/
theorem get_commit_of_intact
    {i : ℕ} {entry : Committed τ ρ} {queue : List WriteCmd}
    (h : Watching prog srv op watched clocks rest)
    (hintact : (srv.commit i entry queue).intact watched = true) :
    srv.intact watched = true ∧ ∀ name ∈ (prog op).watch,
      (applyAll queue srv.db).get name = srv.db.get name := by
  unfold intact at hintact ⊢
  rw [List.all_eq_true] at hintact ⊢
  have hsame : ∀ watch ∈ watched, (applyAll queue srv.db).get watch.1 = srv.db.get watch.1 ∧
      srv.versions watch.1 = watch.2 := by
    intro watch hwatch
    have hpast := h.past watch hwatch
    have hversion := hintact watch hwatch
    simp only [commit, beq_iff_eq] at hversion
    split at hversion
    · rename_i hget
      exact ⟨hget, hversion⟩
    · omega
  constructor
  · intro watch hwatch
    rw [beq_iff_eq]
    exact (hsame watch hwatch).2
  · intro name hname
    rw [← h.names, List.mem_map] at hname
    rcases hname with ⟨watch, hwatch, hname⟩
    rw [← hname]
    exact (hsame watch hwatch).1

theorem Watching.commit
    {i : ℕ} {entry : Committed τ ρ} {queue : List WriteCmd}
    (h : Watching prog srv op watched clocks rest) :
    Watching prog (srv.commit i entry queue) op watched clocks rest := by
  constructor
  · exact h.names
  · intro watch hwatch
    have hpast := h.past watch hwatch
    simp only [Server.commit]
    split
    · exact hpast
    · omega
  · exact h.clock
  · intro hintact t ht name hname
    rcases get_commit_of_intact h hintact with ⟨hbefore, hsame⟩
    simp only [Server.commit]
    rw [if_pos (hsame name hname)]
    exact h.since hbefore t ht name hname
  · intro hintact later result queue' hyields
    rcases get_commit_of_intact h hintact with ⟨hbefore, hsame⟩
    apply Yields.mono _ (h.reads hbefore later result queue' (Yields.mono _ hyields))
    · intro cmd reply hreply hwatched
      rw [← hreply hwatched]
      exact congrArg cmd.run (hsame cmd.name hwatched)
    · intro cmd reply hreply hwatched
      rw [← hreply hwatched]
      exact congrArg cmd.run (hsame cmd.name hwatched).symm

theorem Watching.afterRead
    {cmd : ReadCmd} {next : ReadReply cmd → Body ρ} {reply : ReadReply cmd}
    (h : Watching prog srv op watched clocks (.read cmd next))
    (hreply : cmd.run (srv.db.get cmd.name) = some reply) :
    Watching prog srv op watched clocks (next reply) := by
  constructor
  · exact h.names
  · exact h.past
  · exact h.clock
  · exact h.since
  · intro hintact later result queue hyields
    exact h.reads hintact later result queue ⟨reply, fun _ => hreply, hyields⟩

theorem Watching.afterNow
    {next : ℤ → Body ρ}
    (hchanged : ∀ name, srv.changedAt name ≤ srv.nowMs)
    (h : Watching prog srv op watched clocks (.now next)) :
    Watching prog srv op watched (clocks ++ [srv.nowMs]) (next srv.nowMs) := by
  constructor
  · exact h.names
  · exact h.past
  · intro t ht
    rcases List.mem_append.mp ht with hold | hnew
    · exact h.clock t hold
    · rw [List.mem_singleton.mp hnew]
  · intro hintact t ht name hname
    rcases List.mem_append.mp ht with hold | hnew
    · exact h.since hintact t hold name hname
    · rw [List.mem_singleton.mp hnew]
      exact hchanged name
  · intro hintact later result queue hyields
    rw [List.append_assoc]
    exact h.reads hintact _ result queue ⟨srv.nowMs, later, rfl, hyields⟩

theorem watching_start :
    Watching prog srv op ((prog op).watch.map fun name => (name, srv.versions name)) []
      (prog op).body := by
  constructor
  · simp [Function.comp_def]
  · intro entry hentry
    rcases List.mem_map.mp hentry with ⟨name, _, hname⟩
    rw [← hname]
  · simp
  · simp
  · exact fun _ _ _ _ hyields => hyields

end Kept

theorem Consistent.setConnection
    {i : ℕ} {c : Connection τ ρ}
    (h : Consistent prog srv)
    (hc : ∀ op watched clocks rest, c = .watching op watched clocks rest →
      Watching prog srv op watched clocks rest) :
    Consistent prog (srv.setConnection i c) := by
  constructor
  · exact h.changed
  · intro op watched clocks rest hmem
    rcases List.mem_or_eq_of_mem_set hmem with hold | hnew
    · exact (h.watching _ _ _ _ hold).quiet quiet_setConnection
    · exact (hc _ _ _ _ hnew.symm).quiet quiet_setConnection

theorem Consistent.idle
    {i : ℕ}
    (h : Consistent prog srv) :
    Consistent prog (srv.setConnection i .idle) := by
  apply h.setConnection
  intro op watched clocks rest hidle
  exact absurd hidle (by simp)

theorem Consistent.commit
    {i : ℕ} {entry : Committed τ ρ} {queue : List WriteCmd}
    (h : Consistent prog srv) :
    Consistent prog (srv.commit i entry queue) := by
  constructor
  · intro name
    simp only [Server.commit]
    split
    · exact h.changed name
    · exact le_refl _
  · intro op watched clocks rest hmem
    rcases List.mem_or_eq_of_mem_set hmem with hold | hnew
    · exact (h.watching _ _ _ _ hold).commit
    · exact absurd hnew (by simp)

theorem Consistent.advance
    {i : ℕ} {op : τ} {watched : List (String × ℕ)} {clocks : List ℤ} {rest : Body ρ}
    (h : Consistent prog srv)
    (hwatching : Watching prog srv op watched clocks rest) :
    Consistent prog (srv.advance i op watched clocks rest) := by
  cases rest with
  | read cmd next =>
      simp only [Server.advance]
      split
      · rename_i reply hreply
        apply h.setConnection
        intro op' watched' clocks' rest' hnew
        simp only [Connection.watching.injEq] at hnew
        rcases hnew with ⟨hop, hwatched, hclocks, hrest⟩
        subst hop hwatched hclocks hrest
        exact hwatching.afterRead hreply
      · exact h.idle
  | now next =>
      apply h.setConnection
      intro op' watched' clocks' rest' hnew
      simp only [Connection.watching.injEq] at hnew
      rcases hnew with ⟨hop, hwatched, hclocks, hrest⟩
      subst hop hwatched hclocks hrest
      exact hwatching.afterNow h.changed
  | done result queue =>
      simp only [Server.advance]
      split
      · exact h.commit
      · exact h.idle

theorem Consistent.next
    (h : Consistent prog srv)
    (hnext : srv.next prog label = some srv') :
    Consistent prog srv' := by
  cases label with
  | connect =>
      simp only [Server.next, Option.some.injEq] at hnext
      subst hnext
      refine ⟨h.changed, ?_⟩
      intro op watched clocks rest hmem
      rcases List.mem_append.mp hmem with hold | hnew
      · exact (h.watching _ _ _ _ hold).quiet ⟨rfl, rfl, rfl, le_refl _, rfl⟩
      · exact absurd (List.mem_singleton.mp hnew) (by simp)
  | tick nowMs =>
      simp only [Server.next] at hnext
      split at hnext
      · rename_i hclock
        simp only [Option.some.injEq] at hnext
        subst hnext
        refine ⟨fun name => (h.changed name).trans hclock, ?_⟩
        intro op watched clocks rest hmem
        exact (h.watching _ _ _ _ hmem).quiet ⟨rfl, rfl, rfl, hclock, rfl⟩
      · exact absurd hnext (by simp)
  | watch i op =>
      simp only [Server.next] at hnext
      split at hnext
      · simp only [Option.some.injEq] at hnext
        subst hnext
        apply h.setConnection
        intro op' watched' clocks' rest' hnew
        simp only [Connection.watching.injEq] at hnew
        rcases hnew with ⟨hop, hwatched, hclocks, hrest⟩
        subst hop hwatched hclocks hrest
        exact watching_start
      · exact absurd hnext (by simp)
  | advance i =>
      simp only [Server.next] at hnext
      split at hnext
      · rename_i op watched clocks rest hconnection
        simp only [Option.some.injEq] at hnext
        subst hnext
        exact h.advance (h.watching _ _ _ _ (List.mem_of_getElem? hconnection))
      · exact absurd hnext (by simp)
  | abandon i =>
      simp only [Server.next] at hnext
      split at hnext
      · simp only [Option.some.injEq] at hnext
        subst hnext
        exact h.idle
      · exact absurd hnext (by simp)

theorem consistent_start
    {db : Db} {nowMs : ℤ} :
    Consistent prog (start db nowMs) := by
  refine ⟨fun _ => le_refl _, ?_⟩
  intro op watched clocks rest hmem
  exact absurd hmem (by simp [start])

theorem Reachable.consistent
    {db : Db} {nowMs : ℤ}
    (h : Reachable prog (Server.start db nowMs) srv) :
    Consistent prog srv := by
  induction h with
  | start => exact consistent_start
  | step _ hnext ih => exact ih.next hnext

/-- A transaction that can commit would do the same on the present state of the
keys it watches, and they have not changed since it read the clock. -/
theorem Consistent.committed
    {i : ℕ} {op : τ} {watched : List (String × ℕ)} {clocks : List ℤ} {result : ρ}
    {queue : List WriteCmd}
    (h : Consistent prog srv)
    (hconnection : srv.connections[i]? = some (.watching op watched clocks (.done result queue)))
    (hintact : srv.intact watched = true) :
    (prog op).body.Yields (SeesWatched (prog op).watch srv.db) clocks result queue ∧
      (∀ t ∈ clocks, ∀ name ∈ (prog op).watch, srv.changedAt name ≤ t) ∧
      ∀ t ∈ clocks, t ≤ srv.nowMs := by
  have hwatching := h.watching _ _ _ _ (List.mem_of_getElem? hconnection)
  have hyields := hwatching.reads hintact [] result queue ⟨rfl, rfl, rfl⟩
  rw [List.append_nil] at hyields
  exact ⟨hyields, hwatching.since hintact, hwatching.clock⟩

end Server

end Redis
