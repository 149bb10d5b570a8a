import Gazetteer.Toml.Assembly

/-!
# Documents of values and sections

A document that assigns values and then opens tables inside one table, each with assignments of its
own, is put together as these values and tables, if no key is given twice.

    assignments go to the table that the path leads to                     (foldlM_assignments)
    a section adds a table at the end                                         (foldlM_sections)
    documentStatements outer general sections is put together as
      general ++ [(outer, .table (the sections' tables))]                     (foldlM_document)
-/

namespace Gazetteer.Toml

/-- No key stands twice. -/
def Distinct {α : Type} (l : List (String × α)) : Prop := (l.map (·.1)).Nodup

namespace Members

variable {m : Members} {key : String}

theorem lookup_eq_none {α : Type} {l : List (String × α)} {key : String} :
    l.lookup key = none ↔ key ∉ l.map (·.1) := by
  simp only [List.lookup_eq_none_iff, bne_iff_ne, List.mem_map, not_exists, not_and]
  exact forall₂_congr fun e he => ne_comm

theorem lookup_last (h : m.lookup key = none) (node : Node) :
    List.lookup key (m ++ [(key, node)]) = some node := by
  rw [List.lookup_append, h]
  simp

/-- Members before the place of a key are kept. -/
theorem put_append (h : m.lookup key = none) (l : Members) (node : Node) :
    put (m ++ l) key node = m ++ put l key node := by
  induction m with
  | nil => rfl
  | cons e m ih =>
    obtain ⟨k, n⟩ := e
    rw [List.lookup_cons] at h
    split at h
    · cases h
    · next hne =>
      have hk : k ≠ key := by
        rintro rfl
        simp at hne
      rw [List.cons_append, put, if_neg hk, ih h]
      rfl

theorem put_new (h : m.lookup key = none) (node : Node) : m.put key node = m ++ [(key, node)] := by
  have hput := put_append h [] node
  rwa [List.append_nil] at hput

theorem put_last (h : m.lookup key = none) (old new : Node) :
    put (m ++ [(key, old)]) key new = m ++ [(key, new)] := by
  rw [put_append h, put, if_pos rfl]

/-- A change of a table in the last member. -/
theorem edit_last (change : Origin → Members → Option Members) (path : List String)
    (origin inner : Origin) (sub : Members) (h : m.lookup key = none) :
    edit .implied change (key :: path) origin (m ++ [(key, .table inner sub)]) =
      (edit .implied change path inner sub).map fun sub => m ++ [(key, .table inner sub)] := by
  rw [edit, lookup_last h]
  simp only [reduceCtorEq, false_and, if_false]
  cases edit .implied change path inner sub with
  | none => rfl
  | some sub' =>
    simp only [Option.bind_eq_bind, Option.bind_some, put_last h]
    rfl

/-- A table that comes to be as the last member. -/
theorem edit_new (change : Origin → Members → Option Members) (path : List String)
    (origin : Origin) (h : m.lookup key = none) :
    edit .implied change (key :: path) origin m =
      (edit .implied change path .implied []).map fun sub => m ++ [(key, .table .implied sub)] := by
  rw [edit, h]
  simp only []
  cases edit .implied change path .implied [] with
  | none => rfl
  | some sub =>
    simp only [Option.bind_eq_bind, Option.bind_some, put_new h]
    rfl

theorem addValue_header (h : m.lookup key = none) (v : Value) :
    addValue [] key v .header m = some (m ++ [(key, .value v)]) := by
  simp [addValue, edit, h, put_new h]

end Members

/-! ## Values -/

/-- Members that are values. -/
def valueMembers (l : List (String × Value)) : Members := l.map fun e => (e.1, .value e.2)

theorem valueMembers_concat (l : List (String × Value)) (key : String) (v : Value) :
    valueMembers (l ++ [(key, v)]) = valueMembers l ++ [(key, .value v)] := by
  simp [valueMembers]

theorem lookup_valueMembers {l : List (String × Value)} {key : String} (h : key ∉ l.map (·.1)) :
    (valueMembers l).lookup key = none := by
  rw [Members.lookup_eq_none]
  simpa [valueMembers, Function.comp_def] using h

theorem memberValues_append (m m' : Members) :
    memberValues (m ++ m') = memberValues m ++ memberValues m' := by
  induction m with
  | nil => rfl
  | cons e m ih =>
    obtain ⟨key, node⟩ := e
    rw [List.cons_append, memberValues, memberValues, ih, List.cons_append]

theorem memberValues_valueMembers (l : List (String × Value)) :
    memberValues (valueMembers l) = l := by
  induction l with
  | nil => rfl
  | cons e l ih =>
    obtain ⟨key, v⟩ := e
    have hcons : valueMembers ((key, v) :: l) = (key, .value v) :: valueMembers l := rfl
    rw [hcons, memberValues, Node.toValue, ih]

theorem Distinct.notMem {α : Type} {before after : List (String × α)} {e : String × α}
    (h : Distinct (before ++ e :: after)) : e.1 ∉ before.map (·.1) := by
  intro hmem
  rw [Distinct, List.map_append, List.map_cons, List.nodup_append] at h
  exact h.2.2 e.1 hmem e.1 (by simp) rfl

/-- The statement that gives a key of the open table a value. -/
def assignment (e : String × Value) : Statement := .assign ⟨[], e.1⟩ e.2

/-- The path leads to the members that the function puts in their place. -/
def LeadsTo (path : List String) (within : Members → Members) : Prop :=
  ∀ change m, Members.edit .implied change path .header (within m) =
    (change .header m).map within

theorem leadsTo_root : LeadsTo [] id := by
  intro change m
  rw [Members.edit, Option.map_id]
  rfl

/-- Assignments go to the end of the open table, wherever it is. -/
theorem foldlM_assignments {path : List String} {within : Members → Members}
    (hpath : LeadsTo path within) (l before : List (String × Value)) (h : Distinct (before ++ l)) :
    (l.map assignment).foldlM Draft.add ⟨within (valueMembers before), path⟩ =
      some ⟨within (valueMembers (before ++ l)), path⟩ := by
  induction l generalizing before with
  | nil => simp
  | cons e l ih =>
    obtain ⟨key, v⟩ := e
    have hkey := lookup_valueMembers h.notMem
    have hadd : Draft.add ⟨within (valueMembers before), path⟩ (assignment (key, v)) =
        some ⟨within (valueMembers (before ++ [(key, v)])), path⟩ := by
      simp [Draft.add, assignment, hpath _ _, Members.addValue_header hkey, valueMembers_concat]
    rw [List.map_cons, List.foldlM_cons, hadd, Option.bind_eq_bind, Option.bind_some, ih]
    · simp
    · simpa using h

/-! ## Sections -/

/-- Tables as the last member, or no member if there are none. -/
def withTables (outer : String) (m : Members) : Members → Members
  | [] => m
  | tables => m ++ [(outer, .table .implied tables)]

theorem withTables_concat (outer : String) (m tables : Members) (e : String × Node) :
    withTables outer m (tables ++ [e]) = m ++ [(outer, .table .implied (tables ++ [e]))] := by
  cases tables <;> rfl

/-- Members in the last of the tables. -/
def withSection (outer : String) (m tables : Members) (name : String) (sub : Members) : Members :=
  withTables outer m (tables ++ [(name, .table .header sub)])

theorem leadsTo_section {outer name : String} {m tables : Members} (houter : m.lookup outer = none)
    (hname : tables.lookup name = none) :
    LeadsTo [outer, name] (withSection outer m tables name) := by
  intro change sub
  rw [withSection, withTables_concat, Members.edit_last _ _ _ _ _ houter,
    Members.edit_last _ _ _ _ _ hname, Members.edit]
  cases change .header sub with
  | none => rfl
  | some sub' => simp [withSection, withTables_concat]

theorem add_header {outer name : String} {m tables : Members} (path : List String)
    (houter : m.lookup outer = none) (hname : tables.lookup name = none) :
    Draft.add ⟨withTables outer m tables, path⟩ (.header ⟨[outer], name⟩) =
      some ⟨withSection outer m tables name [], [outer, name]⟩ := by
  have hopen : Members.openTable [outer] name (withTables outer m tables) =
      some (withSection outer m tables name []) := by
    rw [Members.openTable, withSection, withTables_concat]
    cases tables with
    | nil =>
      rw [withTables, Members.edit_new _ _ _ houter]
      rfl
    | cons e tables =>
      rw [withTables, Members.edit_last _ _ _ _ _ houter, Members.edit, hname]
      · simp only [Members.put_new hname, Option.map_some]
      · simp
  rw [Draft.add, hopen]
  rfl

/-- The values of the tables of sections. -/
def sectionMembers (sections : List (String × List (String × Value))) : Members :=
  sections.map fun e => (e.1, .table .header (valueMembers e.2))

/-- A header and what is assigned below it. -/
def sectionStatements (outer : String) (e : String × List (String × Value)) : List Statement :=
  .header ⟨[outer], e.1⟩ :: e.2.map assignment

theorem foldlM_sections {outer : String} {m : Members} (houter : m.lookup outer = none)
    (sections before : List (String × List (String × Value))) (path : List String)
    (h : Distinct (before ++ sections)) (hsections : ∀ e ∈ sections, Distinct e.2) :
    ∃ path', (sections.flatMap (sectionStatements outer)).foldlM Draft.add
        ⟨withTables outer m (sectionMembers before), path⟩ =
      some ⟨withTables outer m (sectionMembers (before ++ sections)), path'⟩ := by
  induction sections generalizing before path with
  | nil => exact ⟨path, by simp⟩
  | cons e sections ih =>
    obtain ⟨name, values⟩ := e
    obtain ⟨hvalues, hrest⟩ := List.forall_mem_cons.mp hsections
    have hname : (sectionMembers before).lookup name = none := by
      rw [Members.lookup_eq_none]
      simpa [sectionMembers, Function.comp_def] using h.notMem
    have hassign := foldlM_assignments (leadsTo_section houter hname) values [] hvalues
    have hplace : withSection outer m (sectionMembers before) name (valueMembers values) =
        withTables outer m (sectionMembers (before ++ [(name, values)])) := by
      simp [withSection, sectionMembers]
    have hempty : valueMembers [] = [] := rfl
    rw [List.nil_append, hplace, hempty] at hassign
    obtain ⟨path', hfold⟩ := ih (before ++ [(name, values)]) [outer, name] (by simpa using h) hrest
    refine ⟨path', ?_⟩
    calc
      _ = ((values.map assignment).foldlM Draft.add
            ⟨withSection outer m (sectionMembers before) name [], [outer, name]⟩).bind
          ((sections.flatMap (sectionStatements outer)).foldlM Draft.add ·) := by
        rw [List.flatMap_cons, List.foldlM_append, sectionStatements, List.foldlM_cons,
          add_header path houter hname]
        rfl
      _ = (sections.flatMap (sectionStatements outer)).foldlM Draft.add
            ⟨withTables outer m (sectionMembers (before ++ [(name, values)])), [outer, name]⟩ := by
        rw [hassign, Option.bind_some]
      _ = _ := by
        rw [hfold, List.append_assoc]
        rfl

/-! ## Documents -/

/-- The table of a document with values and sections. -/
def sectionedTable (outer : String) (general : List (String × Value))
    (sections : List (String × List (String × Value))) : List (String × Value) :=
  general ++ [(outer, .table (sections.map fun e => (e.1, .table e.2)))]

theorem memberValues_sectionMembers (sections : List (String × List (String × Value))) :
    memberValues (sectionMembers sections) = sections.map fun e => (e.1, .table e.2) := by
  induction sections with
  | nil => rfl
  | cons e sections ih =>
    obtain ⟨name, values⟩ := e
    have hcons : sectionMembers ((name, values) :: sections) =
        (name, .table .header (valueMembers values)) :: sectionMembers sections := rfl
    rw [hcons, memberValues, Node.toValue, memberValues_valueMembers, ih]
    rfl

/-- The statements of such a document.  Without sections the outer table is opened by itself. -/
def documentStatements (outer : String) (general : List (String × Value))
    (sections : List (String × List (String × Value))) : List Statement :=
  general.map assignment ++
    if sections.isEmpty then [.header ⟨[], outer⟩] else sections.flatMap (sectionStatements outer)

theorem add_header_root {outer : String} {m : Members} (path : List String)
    (houter : m.lookup outer = none) :
    Draft.add ⟨m, path⟩ (.header ⟨[], outer⟩) =
      some ⟨m ++ [(outer, .table .header [])], [outer]⟩ := by
  simp [Draft.add, Members.openTable, Members.edit, houter, Members.put_new houter]

/-- Values and sections are put together. -/
theorem foldlM_document {outer : String} {general : List (String × Value)}
    {sections : List (String × List (String × Value))}
    (hgeneral : Distinct general) (houter : outer ∉ general.map (·.1)) (hnames : Distinct sections)
    (hsections : ∀ e ∈ sections, Distinct e.2) :
    ∃ d, (documentStatements outer general sections).foldlM Draft.add Draft.empty = some d ∧
      memberValues d.root = sectionedTable outer general sections := by
  have hlookup := lookup_valueMembers houter
  have hroot : (general.map assignment).foldlM Draft.add Draft.empty =
      some ⟨valueMembers general, []⟩ := foldlM_assignments leadsTo_root general [] hgeneral
  rw [documentStatements, List.foldlM_append, hroot]
  simp only [Option.bind_eq_bind, Option.bind_some]
  cases sections with
  | nil =>
    have hopen : [Statement.header ⟨[], outer⟩].foldlM Draft.add ⟨valueMembers general, []⟩ =
        some ⟨valueMembers general ++ [(outer, .table .header [])], [outer]⟩ := by
      rw [List.foldlM_cons, add_header_root [] hlookup]
      rfl
    refine ⟨_, hopen, ?_⟩
    rw [memberValues_append, memberValues_valueMembers]
    rfl
  | cons e sections =>
    obtain ⟨path, hfold⟩ := foldlM_sections hlookup (e :: sections) [] [] hnames hsections
    refine ⟨_, hfold, ?_⟩
    have htables : withTables outer (valueMembers general) (sectionMembers (e :: sections)) =
        valueMembers general ++ [(outer, .table .implied (sectionMembers (e :: sections)))] := rfl
    rw [List.nil_append, htables, memberValues_append, memberValues_valueMembers, memberValues,
      Node.toValue, memberValues_sectionMembers]
    rfl

end Gazetteer.Toml
