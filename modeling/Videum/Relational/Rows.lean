import Videum.Relational.Scripts

/-!
# Rows and the rules they obey

No statement breaks a rule: a write that would is refused, and a definition
that goes through leaves the rows as they obeyed the rules before.

## Main results

* `exec_integral`, `execAll_integral` — statements and scripts keep the
  integrity.
-/

namespace Videum.Relational

variable {D D' : Database}

/-! ## Definitions keep the integrity -/

/-- What a value refers to is still there. -/
theorem Database.Refers.mono {refTable refColumn : String} {v : Value}
    (htables : ∀ u ∈ D.tables, u.name = refTable →
      ∃ u' ∈ D'.tables, u'.name = u.name ∧ u'.rows = u.rows)
    (h : D.Refers refTable refColumn v) : D'.Refers refTable refColumn v := by
  rcases h with hnull | ⟨u, hu, hname, r, hr, hv⟩
  · exact .inl hnull
  · obtain ⟨u', hu', hname', hrows⟩ := htables u hu hname
    exact .inr ⟨u', hu', hname'.trans hname, r, hrows ▸ hr, hv⟩

/-- The same rows still obey the rule. -/
theorem Database.Satisfies.mono {t t' : Table} {rule : Rule}
    (hrows : t'.rows = t.rows)
    (hrefers : ∀ column refTable refColumn v,
      rule = .foreignKey column refTable refColumn →
      D.Refers refTable refColumn v → D'.Refers refTable refColumn v)
    (h : D.Satisfies t rule) : D'.Satisfies t' rule := by
  cases rule with
  | foreignKey column refTable refColumn =>
      intro r hr
      rw [hrows] at hr
      exact hrefers column refTable refColumn _ rfl (h r hr)
  | primaryKey columns =>
      unfold Satisfies at h ⊢
      rw [hrows]
      exact h
  | unique columns =>
      unfold Satisfies at h ⊢
      rw [hrows]
      exact h

/-- A row still fits its table. -/
theorem Database.Fits.mono {t t' : TableDef} {r : Row}
    (hcolumns : t'.columns = t.columns)
    (haccepts : ∀ c ∈ t.columns, ∀ v, D.accepts c.type v = true →
      D'.accepts c.type v = true)
    (h : D.Fits t r) : D'.Fits t' r := by
  refine ⟨?_, ?_, ?_⟩
  · rw [TableDef.columnNames, hcolumns]
    exact h.names
  · rw [hcolumns]
    exact fun c hc => haccepts c hc _ (h.values c hc)
  · rw [hcolumns]
    exact h.notNull

/-- Types that are still there, with their labels, accept what they did. -/
theorem Database.accepts_mono {type : ColumnType}
    (htypes : ∀ e ∈ D.types, some e.name = type.enum? → e ∈ D'.types)
    {v : Value} (h : D.accepts type v = true) : D'.accepts type v = true := by
  cases type with
  | enum name =>
      cases v with
      | text s =>
          simp only [accepts, List.any_eq_true, Bool.and_eq_true,
            beq_iff_eq] at h ⊢
          obtain ⟨e, he, rfl, hs⟩ := h
          exact ⟨e, htypes e he rfl, rfl, hs⟩
      | _ => exact h
  | varchar limit => cases limit <;> cases v <;> exact h
  | _ => cases v <;> exact h

/-- Whether a row fits depends on the types and the columns only. -/
theorem Database.Fits.of_types {t t' : TableDef} {r : Row}
    (htypes : D'.types = D.types) (hcolumns : t'.columns = t.columns)
    (h : D.Fits t r) : D'.Fits t' r := by
  apply h.mono hcolumns
  intro c _ v
  apply accepts_mono
  rw [htypes]
  exact fun _ he _ => he

/-- Indexes have nothing to do with the rules. -/
theorem Database.Integral.of_tables (htypes : D'.types = D.types)
    (htables : D'.tables = D.tables) (h : D.Integral) : D'.Integral := by
  constructor
  · rw [htables]
    exact fun t ht r hr => (h.fits t ht r hr).of_types htypes rfl
  · rw [htables]
    intro t ht c hc
    apply (h.rules t ht c hc).mono rfl
    intro _ _ _ _ _ hv
    apply hv.mono
    rw [htables]
    exact fun u hu _ => ⟨u, hu, rfl, rfl⟩

theorem createType_integral {name : String} {labels : List String}
    (hi : D.Integral)
    (h : (Statement.createType name labels).exec D = some D') :
    D'.Integral := by
  obtain ⟨_, _, rfl⟩ := settled_if.1 h
  refine ⟨fun t ht r hr => ?_, hi.rules⟩
  apply (hi.fits t ht r hr).mono rfl
  exact fun c _ v => Database.accepts_mono fun e he _ =>
    List.mem_append_left _ he

theorem dropType_integral {name : String} (hi : D.Integral)
    (h : (Statement.dropType name).exec D = some D') : D'.Integral := by
  obtain ⟨_, hsound, rfl⟩ := settled_if.1 h
  refine ⟨fun t ht r hr => ?_, hi.rules⟩
  apply (hi.fits t ht r hr).mono rfl
  intro c hc v
  apply Database.accepts_mono
  intro e he henum
  -- the column's type is among those that stay
  obtain ⟨e', he', hname⟩ :=
    List.mem_map.1 (hsound.types t ht c hc e.name henum.symm)
  have hne := (List.mem_filter.1 he').2
  rw [hname] at hne
  exact List.mem_filter.2 ⟨he, hne⟩

theorem createTable_integral {t : TableDef} (hi : D.Integral)
    (h : (Statement.createTable t).exec D = some D') : D'.Integral := by
  obtain ⟨_, _, rfl⟩ := settled_if.1 h
  constructor
  · intro u hu r hr
    rcases List.mem_append.1 hu with hu | hu
    · apply (hi.fits u hu r hr).of_types <;> rfl
    · rw [List.mem_singleton.1 hu] at hr
      cases hr
  · intro u hu c hc
    rcases List.mem_append.1 hu with hu | hu
    · apply (hi.rules u hu c hc).mono rfl
      rintro _ _ _ v _ hv
      apply hv.mono
      exact fun u hu _ => ⟨u, List.mem_append_left _ hu, rfl, rfl⟩
    · rw [List.mem_singleton.1 hu]
      cases c.rule with
      | foreignKey _ _ _ =>
          intro r hr
          cases hr
      | _ => exact List.Pairwise.nil

theorem dropTable_integral {name : String} (hi : D.Integral)
    (h : (Statement.dropTable name).exec D = some D') : D'.Integral := by
  obtain ⟨_, hsound, rfl⟩ := settled_if.1 h
  have hmem : ∀ u ∈ D.tables, u.name ≠ name →
      u ∈ D.tables.filter fun t => t.name ≠ name :=
    fun u hu hne => List.mem_filter.2 ⟨hu, decide_eq_true hne⟩
  constructor
  · intro t ht r hr
    apply (hi.fits t (List.mem_filter.1 ht).1 r hr).of_types <;> rfl
  · intro t ht c hc
    apply (hi.rules t (List.mem_filter.1 ht).1 c hc).mono rfl
    intro column refTable refColumn v hrule hv
    apply hv.mono
    intro u hu hrefTable
    -- the table referred to is among those that stay
    have hground := hsound.rules t ht c hc
    rw [hrule] at hground
    obtain ⟨_, w, hw, hwname, _⟩ := hground
    have hne := of_decide_eq_true (List.mem_filter.1 hw).2
    exact ⟨u, hmem u hu (by rw [hrefTable, ← hwname]; exact hne), rfl, rfl⟩

/-- Constraints of a table are changed, and its rows obey the new ones. -/
theorem onTable_integral {table : String} {f : Table → Table}
    (hcolumns : ∀ t, (f t).columns = t.columns)
    (hname : ∀ t, (f t).name = t.name) (hrows : ∀ t, (f t).rows = t.rows)
    (hi : D.Integral)
    (hnew : ∀ t ∈ D.tables, t.name = table → ∀ c ∈ (f t).constraints,
      c ∈ t.constraints ∨ (D.onTable table f).Satisfies (f t) c.rule) :
    (D.onTable table f).Integral := by
  have hrefers : ∀ refTable refColumn v, D.Refers refTable refColumn v →
      (D.onTable table f).Refers refTable refColumn v := by
    intro refTable refColumn v hv
    apply hv.mono
    intro u hu _
    refine ⟨_, List.mem_map_of_mem hu, ?_⟩
    by_cases hu' : u.name = table
    · simp only [if_pos hu', hname, hrows, and_self]
    · simp only [if_neg hu', and_self]
  constructor
  · intro t' ht' r hr
    obtain ⟨t, ht, rfl⟩ := List.mem_map.1 ht'
    by_cases htable : t.name = table
    · simp only [if_pos htable, hrows] at hr ⊢
      apply (hi.fits t ht r hr).of_types
      · rfl
      · exact hcolumns t
    · simp only [if_neg htable] at hr ⊢
      apply (hi.fits t ht r hr).of_types <;> rfl
  · intro t' ht' c hc
    obtain ⟨t, ht, rfl⟩ := List.mem_map.1 ht'
    by_cases htable : t.name = table
    · simp only [if_pos htable] at hc ⊢
      rcases hnew t ht htable c hc with hold | hsat
      · exact (hi.rules t ht c hold).mono (hrows t)
          fun _ _ _ v _ => hrefers _ _ v
      · exact hsat
    · simp only [if_neg htable] at hc ⊢
      exact (hi.rules t ht c hc).mono rfl fun _ _ _ v _ => hrefers _ _ v

theorem addConstraint_integral {table : String} {c : Constraint}
    (hi : D.Integral)
    (h : (Statement.addConstraint table c).exec D = some D') :
    D'.Integral := by
  obtain ⟨⟨_, _, _, hrule⟩, _, rfl⟩ := settled_if.1 h
  refine onTable_integral ?_ ?_ ?_ hi ?_
  iterate 3 exact fun _ => rfl
  intro t ht hname c' hc'
  rcases List.mem_append.1 hc' with hold | hnew
  · exact .inl hold
  · rw [List.mem_singleton.1 hnew]
    refine .inr (hrule _ (List.mem_map.2 ⟨t, ht, if_pos hname⟩) hname)

theorem dropConstraint_integral {table name : String} (hi : D.Integral)
    (h : (Statement.dropConstraint table name).exec D = some D') :
    D'.Integral := by
  obtain ⟨_, _, rfl⟩ := settled_if.1 h
  refine onTable_integral ?_ ?_ ?_ hi ?_
  iterate 3 exact fun _ => rfl
  exact fun t _ _ c hc => .inl (List.mem_filter.1 hc).1

/-- Statements keep the integrity. -/
theorem exec_integral {s : Statement} (hi : D.Integral)
    (h : s.exec D = some D') : D'.Integral := by
  cases s with
  | createType name labels => exact createType_integral hi h
  | dropType name => exact dropType_integral hi h
  | createTable t => exact createTable_integral hi h
  | dropTable name => exact dropTable_integral hi h
  | createIndex i =>
      obtain ⟨_, _, rfl⟩ := settled_if.1 h
      apply hi.of_tables <;> rfl
  | dropIndex name =>
      obtain ⟨_, _, rfl⟩ := settled_if.1 h
      apply hi.of_tables <;> rfl
  | addConstraint table c => exact addConstraint_integral hi h
  | dropConstraint table name => exact dropConstraint_integral hi h
  | _ => exact (exec_write rfl h).2

theorem execAll_integral {script : List Statement} (hi : D.Integral)
    (h : execAll script D = some D') : D'.Integral := by
  induction script generalizing D with
  | nil =>
      cases h
      exact hi
  | cons s rest ih =>
      obtain ⟨D₁, hfirst, hrest⟩ := Option.bind_eq_some_iff.1 h
      exact ih (exec_integral hi hfirst) hrest

end Videum.Relational
