import Untangled.SchemaWellFormed

/-!
# The order of a plan

The operations of a plan stand phase after phase, none of them twice, and a
column is added before its default is dropped.
-/

namespace Untangled.Schema

/-- The place of an operation's phase in a plan. -/
@[simp] def MigrationOp.phase : MigrationOp → ℕ
  | .dropForeignKey _ _ => 0
  | .dropIndex _ => 1
  | .dropCheck _ _ => 2
  | .dropColumn _ _ => 3
  | .alterColumnType _ _ _ _ => 3
  | .alterColumnNullability _ _ _ => 3
  | .dropTable _ => 4
  | .dropSequence _ => 5
  | .createTable _ => 6
  | .addColumn _ _ _ => 7
  | .dropColumnDefault _ _ => 7
  | .createSequence _ => 8
  | .createIndex _ _ => 9
  | .addForeignKey _ _ => 10
  | .addCheck _ _ => 11

/-- How two operations of a plan may follow each other. -/
structure MigrationOp.Before (a b : MigrationOp) : Prop where
  phase : a.phase ≤ b.phase
  ne : a ≠ b
  addsFirst : ∀ t c d, b = .addColumn t c d → a ≠ .dropColumnDefault t c.name

theorem before_of_phase_lt {a b : MigrationOp} (hlt : a.phase < b.phase) :
    a.Before b where
  phase := hlt.le
  ne := by
    intro heq
    rw [heq] at hlt
    exact absurd hlt (lt_irrefl _)
  addsFirst := by
    intro t c d hb ha
    rw [ha, hb] at hlt
    exact absurd hlt (lt_irrefl _)

/-- The table and the column of an operation on one column. -/
def MigrationOp.column : MigrationOp → Option (String × String)
  | .addColumn t c _ => some (t, c.name)
  | .dropColumnDefault t n => some (t, n)
  | .dropColumn t n => some (t, n)
  | .alterColumnType t n _ _ => some (t, n)
  | .alterColumnNullability t n _ => some (t, n)
  | _ => none

theorem before_of_column_ne {a b : MigrationOp} (hphase : a.phase ≤ b.phase)
    (hne : a.column ≠ b.column) : a.Before b where
  phase := hphase
  ne := fun heq => hne (congrArg _ heq)
  addsFirst := by
    rintro t c d rfl rfl
    exact hne rfl

/-- One phase after the other. -/
theorem flatten_before {phases : List MigrationPlan}
    (hphase : ∀ k, ∀ h : k < phases.length, ∀ op ∈ phases[k], op.phase = k)
    (hwithin : ∀ ops ∈ phases, ops.Pairwise MigrationOp.Before) :
    phases.flatten.Pairwise MigrationOp.Before := by
  refine List.pairwise_flatten.mpr ⟨hwithin, ?_⟩
  rw [List.pairwise_iff_getElem]
  intro i j hi hj hlt a ha b hb
  apply before_of_phase_lt
  rwa [hphase i hi a ha, hphase j hj b hb]

theorem before_of_nodup {ops : MigrationPlan} {k : ℕ} (hops : ops.Nodup)
    (hphase : ∀ op ∈ ops, op.phase = k) (hk : k ≠ 7) :
    ops.Pairwise MigrationOp.Before := by
  apply hops.pairwise_of_forall_ne
  intro a ha b hb hne
  refine ⟨by rw [hphase a ha, hphase b hb], hne, ?_⟩
  rintro t c d rfl
  exact absurd (hphase _ hb).symm hk

/-! ## No operation twice -/

/-- Operations made from the items of several tables. -/
theorem nodup_made {κ : Type} {tables : List String} {items : String → List κ}
    {make : String → κ → MigrationOp} (htables : tables.Nodup)
    (hitems : ∀ t ∈ tables, (items t).Nodup)
    (hmake : ∀ t ∈ tables, ∀ t' ∈ tables, ∀ x ∈ items t, ∀ x' ∈ items t',
      make t x = make t' x' → t = t' ∧ x = x') :
    (tables.flatMap fun t => (items t).map (make t)).Nodup := by
  refine List.nodup_flatMap.mpr ⟨?_, ?_⟩
  · intro t ht
    apply List.Nodup.map_on _ (hitems t ht)
    intro x hx x' hx' heq
    exact (hmake t ht t ht x hx x' hx' heq).2
  · apply htables.pairwise_of_forall_ne
    intro t ht t' ht' hne op hop hop'
    rcases List.mem_map.mp hop with ⟨x, hx, rfl⟩
    rcases List.mem_map.mp hop' with ⟨x', hx', heq⟩
    exact hne (hmake t ht t' ht' x hx x' hx' heq.symm).1

section Members

variable {α : Type} [Named α] [DecidableEq α] {members : TableIR → List α}
  {desired current : SchemaIR}

theorem nodup_dropMembers {make : String → String → MigrationOp}
    (hnames : ∀ t, (namesOf (members (current.table t))).Nodup)
    (hmake : ∀ t t', ∀ n ∈ namesOf (members (current.table t)),
      ∀ n' ∈ namesOf (members (current.table t')),
        make t n = make t' n' → t = t' ∧ n = n') :
    (dropMembers members make desired current).Nodup := by
  have hshared := nodup_sortedNames
    ((namesOf desired.tables).filter (· ∈ namesOf current.tables))
  have hgone := nodup_sortedNames
    ((namesOf current.tables).filter (· ∉ namesOf desired.tables))
  have hlisted : ∀ t, ∀ n ∈ removedOrChanged (members (desired.table t))
      (members (current.table t)), n ∈ namesOf (members (current.table t)) :=
    fun t n hn => (mem_removedOrChanged.mp hn).1
  have hdropped : (dropNames desired current).flatMap
      (fun n => (members (current.table n)).map fun m => make n (name m)) =
      (dropNames desired current).flatMap
        fun n => (namesOf (members (current.table n))).map (make n) := by
    simp [namesOf, Function.comp_def]
  rw [dropMembers, hdropped]
  refine List.Nodup.append (nodup_made hshared ?_ ?_) (nodup_made hgone ?_ ?_) ?_
  · exact fun t _ => nodup_removedOrChanged _ _
  · intro t _ t' _ n hn n' hn' heq
    exact hmake t t' n (hlisted t n hn) n' (hlisted t' n' hn') heq
  · exact fun t _ => hnames t
  · intro t _ t' _ n hn n' hn' heq
    exact hmake t t' n hn n' hn' heq
  · intro op hop hop'
    rcases List.mem_flatMap.mp hop with ⟨t, ht, hmade⟩
    rcases List.mem_map.mp hmade with ⟨n, hn, rfl⟩
    rcases List.mem_flatMap.mp hop' with ⟨t', ht', hmade'⟩
    rcases List.mem_map.mp hmade' with ⟨n', hn', heq⟩
    have hsame := (hmake t t' n (hlisted t n hn) n' hn' heq.symm).1
    subst hsame
    exact (mem_dropNames.mp ht').2 (mem_sharedNames.mp ht).1

theorem nodup_addMembers {make : String → α → MigrationOp} {order : List String}
    (horder : order.Nodup)
    (hnames : ∀ t, (namesOf (members (desired.table t))).Nodup)
    (hmake : ∀ t t' m m', make t m = make t' m' → t = t' ∧ m = m') :
    (addMembers members make order desired current).Nodup := by
  apply nodup_made horder
  · intro t _
    apply List.Nodup.filter
    rw [(sortedByName_perm _).nodup_iff]
    exact List.Nodup.of_map _ (hnames t)
  · intro t _ t' _ m _ m' _ heq
    exact hmake t t' m m' heq

end Members

/-! ## Columns -/

theorem column_of_mem_alterColumn {t : String} {want has : ColumnIR}
    {op : MigrationOp} (hop : op ∈ alterColumn t want has) :
    op.column = some (t, want.name) ∧ op.phase = 3 := by
  rcases mem_alterColumn.mp hop with ⟨_, rfl⟩ | ⟨_, rfl⟩
  · exact ⟨rfl, rfl⟩
  · exact ⟨rfl, rfl⟩

theorem nodup_alterColumn (t : String) (want has : ColumnIR) :
    (alterColumn t want has).Nodup := by
  unfold alterColumn
  by_cases htype : want.typeName = has.typeName <;>
    by_cases hnull : want.nullable = has.nullable <;> simp [htype, hnull]

section Columns

variable {desired current : SchemaIR} {defaults : ColumnAddDefaults}

theorem column_of_mem_diffColumns {want has : TableIR} {op : MigrationOp}
    (hop : op ∈ diffColumns want has) : ∃ n, op.column = some (want.name, n) := by
  simp only [diffColumns, List.mem_append, List.mem_map, List.mem_flatMap] at hop
  rcases hop with ⟨n, _, rfl⟩ | ⟨n, _, hop⟩
  · exact ⟨n, rfl⟩
  · cases hwant : byName want.columns n with
    | none => simp [hwant] at hop
    | some c =>
        cases hhas : byName has.columns n with
        | none => simp [hwant, hhas] at hop
        | some c' =>
            simp only [hwant, hhas] at hop
            exact ⟨c.name, (column_of_mem_alterColumn hop).1⟩

theorem column_of_mem_alterColumns {want has : TableIR} {m : String} {op : MigrationOp}
    (hm : op ∈ (match byName want.columns m, byName has.columns m with
      | some want', some has' => alterColumn want.name want' has'
      | _, _ => [])) :
    op.column = some (want.name, m) := by
  cases hwant : byName want.columns m with
  | none => simp [hwant] at hm
  | some c =>
      cases hhas : byName has.columns m with
      | none => simp [hwant, hhas] at hm
      | some c' =>
          simp only [hwant, hhas] at hm
          have hname : c.name = m := (byName_some hwant).2
          rw [← hname]
          exact (column_of_mem_alterColumn hm).1

theorem nodup_diffColumns (want has : TableIR) : (diffColumns want has).Nodup := by
  unfold diffColumns
  refine List.Nodup.append ?_ ?_ ?_
  · apply List.Nodup.map_on _ (nodup_sortedNames _)
    intro n _ n' _ heq
    exact (MigrationOp.dropColumn.inj heq).2
  · refine List.nodup_flatMap.mpr ⟨?_, ?_⟩
    · intro n _
      cases byName want.columns n with
      | none => exact List.nodup_nil
      | some c =>
          cases byName has.columns n with
          | none => exact List.nodup_nil
          | some c' => exact nodup_alterColumn _ _ _
    · apply (nodup_sortedNames _).pairwise_of_forall_ne
      intro n _ n' _ hne op hop hop'
      have hboth := (column_of_mem_alterColumns hop).symm.trans (column_of_mem_alterColumns hop')
      simp only [Option.some.injEq, Prod.mk.injEq, true_and] at hboth
      exact hne hboth
  · intro op hdrop halter
    rcases List.mem_map.mp hdrop with ⟨n, _, rfl⟩
    rcases List.mem_flatMap.mp halter with ⟨m, _, hm⟩
    cases hwant : byName want.columns m with
    | none => simp [hwant] at hm
    | some c =>
        cases hhas : byName has.columns m with
        | none => simp [hwant, hhas] at hm
        | some c' =>
            simp only [hwant, hhas] at hm
            rcases mem_alterColumn.mp hm with ⟨_, heq⟩ | ⟨_, heq⟩
            · cases heq
            · cases heq

theorem nodup_changeColumns : (changeColumns desired current).Nodup := by
  refine List.nodup_flatMap.mpr ⟨fun t _ => nodup_diffColumns _ _, ?_⟩
  apply (nodup_sortedNames _).pairwise_of_forall_ne
  intro t _ t' _ hne op hop hop'
  rcases column_of_mem_diffColumns hop with ⟨n, hkey⟩
  rcases column_of_mem_diffColumns hop' with ⟨n', hkey'⟩
  rw [hkey] at hkey'
  simp only [SchemaIR.table_name, Option.some.injEq, Prod.mk.injEq] at hkey'
  exact hne hkey'.1

theorem of_mem_addColumnOps {t : String} {c : ColumnIR} {op : MigrationOp}
    (hop : op ∈ addColumnOps defaults t c) :
    op.column = some (t, c.name) ∧ op.phase = 7 := by
  unfold addColumnOps at hop
  rcases List.mem_cons.mp hop with rfl | hop
  · exact ⟨rfl, rfl⟩
  · have hdrop : op = .dropColumnDefault t c.name := by
      by_contra hne
      split at hop <;> simp_all
    rw [hdrop]
    exact ⟨rfl, rfl⟩

theorem addColumnOps_before (t : String) (c : ColumnIR) :
    (addColumnOps defaults t c).Pairwise MigrationOp.Before := by
  unfold addColumnOps
  generalize (if c.nullable then none else defaults t c.name) = addDefault
  cases addDefault with
  | none => exact List.pairwise_singleton _ _
  | some v =>
      have hpair : (MigrationOp.addColumn t c (some v)).Before
          (.dropColumnDefault t c.name) := by
        refine ⟨le_refl _, by simp, ?_⟩
        intro t' c' d hb
        cases hb
      simpa using hpair

theorem addColumns_before (hdesired : desired.WellFormed) :
    (addColumns desired current defaults).Pairwise MigrationOp.Before := by
  refine List.pairwise_flatMap.mpr ⟨?_, ?_⟩
  · intro t _
    refine List.pairwise_flatMap.mpr ⟨fun c _ => addColumnOps_before t c, ?_⟩
    have hnodup : ((sortedByName (desired.table t).columns).filter fun c =>
        c.name ∉ namesOf (current.table t).columns).Nodup := by
      apply List.Nodup.filter
      rw [(sortedByName_perm _).nodup_iff]
      exact List.Nodup.of_map _ (hdesired.nodup_columns t)
    apply hnodup.pairwise_of_forall_ne
    intro c hc c' hc' hne a ha b hb
    have hkey := of_mem_addColumnOps ha
    have hkey' := of_mem_addColumnOps hb
    apply before_of_column_ne (hkey.2.trans hkey'.2.symm).le
    rw [hkey.1, hkey'.1]
    simp only [ne_eq, Option.some.injEq, Prod.mk.injEq, true_and]
    intro hname
    have hmem := mem_sortedByName.mp (List.mem_filter.mp hc).1
    have hmem' := mem_sortedByName.mp (List.mem_filter.mp hc').1
    exact hne (hdesired.unambiguous.columns t c hmem c' hmem' hname)
  · apply (nodup_sortedNames _).pairwise_of_forall_ne
    intro t _ t' _ hne a ha b hb
    rcases List.mem_flatMap.mp ha with ⟨c, _, ha⟩
    rcases List.mem_flatMap.mp hb with ⟨c', _, hb⟩
    have hkey := of_mem_addColumnOps ha
    have hkey' := of_mem_addColumnOps hb
    apply before_of_column_ne (hkey.2.trans hkey'.2.symm).le
    rw [hkey.1, hkey'.1]
    simp only [ne_eq, Option.some.injEq, Prod.mk.injEq]
    exact fun hboth => hne hboth.1

end Columns

/-! ## The whole plan -/

section Plan

variable {desired current : SchemaIR} {defaults : ColumnAddDefaults}

theorem plan_before (hdesired : desired.WellFormed) (hcurrent : current.WellFormed) :
    (diffSchemas desired current defaults).Pairwise MigrationOp.Before := by
  have hplan : diffSchemas desired current defaults =
      [dropForeignKeys desired current, dropIndexes desired current,
        dropChecks desired current, changeColumns desired current,
        dropTables desired current, dropSequences desired current,
        createTables desired current, addColumns desired current defaults,
        createSequences desired current, createIndexes desired current,
        addForeignKeys desired current, addChecks desired current].flatten := by
    simp [diffSchemas]
  have h0 : ∀ op ∈ dropForeignKeys desired current, op.phase = 0 := by
    intro op hop
    rcases mem_dropMembers.mp hop with ⟨t, _, n, _, rfl⟩ | ⟨t, _, m, _, rfl⟩ <;> rfl
  have h1 : ∀ op ∈ dropIndexes desired current, op.phase = 1 := by
    intro op hop
    rcases mem_dropMembers.mp hop with ⟨t, _, n, _, rfl⟩ | ⟨t, _, m, _, rfl⟩ <;> rfl
  have h2 : ∀ op ∈ dropChecks desired current, op.phase = 2 := by
    intro op hop
    rcases mem_dropMembers.mp hop with ⟨t, _, n, _, rfl⟩ | ⟨t, _, m, _, rfl⟩ <;> rfl
  have h3 : ∀ op ∈ changeColumns desired current, op.phase = 3 := by
    intro op hop
    rcases mem_changeColumns.mp hop with
      ⟨t, _, ⟨n, _, _, rfl⟩ | ⟨n, want, has, _, _, hop⟩⟩
    · rfl
    · exact (column_of_mem_alterColumn hop).2
  have h4 : ∀ op ∈ dropTables desired current, op.phase = 4 := by
    intro op hop
    rcases mem_dropTables.mp hop with ⟨n, _, rfl⟩
    rfl
  have h5 : ∀ op ∈ dropSequences desired current, op.phase = 5 := by
    intro op hop
    rcases mem_dropSequences.mp hop with ⟨n, _, _, rfl⟩
    rfl
  have h6 : ∀ op ∈ createTables desired current, op.phase = 6 := by
    intro op hop
    rcases mem_createTables.mp hop with ⟨n, _, rfl⟩
    rfl
  have h7 : ∀ op ∈ addColumns desired current defaults, op.phase = 7 := by
    intro op hop
    rcases mem_addColumns.mp hop with ⟨t, _, c, _, _, hop⟩
    exact (of_mem_addColumnOps hop).2
  have h8 : ∀ op ∈ createSequences desired current, op.phase = 8 := by
    intro op hop
    rcases mem_createSequences.mp hop with ⟨n, _, s, _, rfl⟩
    rfl
  have h9 : ∀ op ∈ createIndexes desired current, op.phase = 9 := by
    intro op hop
    rcases mem_addMembers.mp hop with ⟨t, _, m, _, _, rfl⟩
    rfl
  have h10 : ∀ op ∈ addForeignKeys desired current, op.phase = 10 := by
    intro op hop
    rcases mem_addMembers.mp hop with ⟨t, _, m, _, _, rfl⟩
    rfl
  have h11 : ∀ op ∈ addChecks desired current, op.phase = 11 := by
    intro op hop
    rcases mem_addMembers.mp hop with ⟨t, _, m, _, _, rfl⟩
    rfl
  have hdropForeignKeys : (dropForeignKeys desired current).Nodup := by
    apply nodup_dropMembers hcurrent.nodup_foreignKeys
    intro t t' n _ n' _ heq
    exact MigrationOp.dropForeignKey.inj heq
  have hdropIndexes : (dropIndexes desired current).Nodup := by
    apply nodup_dropMembers hcurrent.nodup_indexes
    intro t t' n hn n' hn' heq
    have hname := MigrationOp.dropIndex.inj heq
    rcases mem_namesOf.mp hn with ⟨i, hi, rfl⟩
    rcases mem_namesOf.mp hn' with ⟨i', hi', rfl⟩
    exact ⟨(hcurrent.indexes_inj hi hi' hname).1, hname⟩
  have hdropChecks : (dropChecks desired current).Nodup := by
    apply nodup_dropMembers hcurrent.nodup_checks
    intro t t' n _ n' _ heq
    exact MigrationOp.dropCheck.inj heq
  have hdropTables : (dropTables desired current).Nodup :=
    (nodup_topoSort _ _ _).map fun _ _ heq => MigrationOp.dropTable.inj heq
  have hdropSequences : (dropSequences desired current).Nodup :=
    (nodup_sortedNames _).map fun _ _ heq => MigrationOp.dropSequence.inj heq
  have hcreateTables : (createTables desired current).Nodup := by
    apply (nodup_topoSort _ _ _).map
    intro n n' heq
    have hnames := congrArg TableIR.name (MigrationOp.createTable.inj heq)
    simpa [tableWithoutFksIndexesOrChecks, SchemaIR.table_name] using hnames
  have hcreateSequences : (createSequences desired current).Nodup := by
    refine List.Nodup.filterMap ?_ (nodup_sortedNames _)
    intro n n' op hn hn'
    rcases Option.map_eq_some_iff.mp hn with ⟨s, hs, rfl⟩
    rcases Option.map_eq_some_iff.mp hn' with ⟨s', hs', heq⟩
    have hsame := MigrationOp.createSequence.inj heq
    subst hsame
    exact (byName_some hs).2.symm.trans (byName_some hs').2
  have hcreateIndexes : (createIndexes desired current).Nodup :=
    nodup_addMembers (nodup_sortedNames _) hdesired.nodup_indexes
      fun _ _ _ _ heq => MigrationOp.createIndex.inj heq
  have haddForeignKeys : (addForeignKeys desired current).Nodup :=
    nodup_addMembers (nodup_topoSort _ _ _) hdesired.nodup_foreignKeys
      fun _ _ _ _ heq => MigrationOp.addForeignKey.inj heq
  have haddChecks : (addChecks desired current).Nodup :=
    nodup_addMembers (nodup_sortedNames _) hdesired.nodup_checks
      fun _ _ _ _ heq => MigrationOp.addCheck.inj heq
  rw [hplan]
  apply flatten_before
  · intro k hk
    simp only [List.length_cons, List.length_nil] at hk
    interval_cases k
    · exact h0
    · exact h1
    · exact h2
    · exact h3
    · exact h4
    · exact h5
    · exact h6
    · exact h7
    · exact h8
    · exact h9
    · exact h10
    · exact h11
  · simp only [List.mem_cons, List.not_mem_nil, or_false, forall_eq_or_imp, forall_eq]
    exact ⟨before_of_nodup hdropForeignKeys h0 (by decide),
      before_of_nodup hdropIndexes h1 (by decide),
      before_of_nodup hdropChecks h2 (by decide),
      before_of_nodup nodup_changeColumns h3 (by decide),
      before_of_nodup hdropTables h4 (by decide),
      before_of_nodup hdropSequences h5 (by decide),
      before_of_nodup hcreateTables h6 (by decide), addColumns_before hdesired,
      before_of_nodup hcreateSequences h8 (by decide),
      before_of_nodup hcreateIndexes h9 (by decide),
      before_of_nodup haddForeignKeys h10 (by decide),
      before_of_nodup haddChecks h11 (by decide)⟩

end Plan

end Untangled.Schema
