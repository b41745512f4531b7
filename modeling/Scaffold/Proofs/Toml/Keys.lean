import Scaffold.Proofs.Config.Merging
import Scaffold.Toml.Parse

namespace Scaffold.Toml
set_option autoImplicit true

open Value (Distinct)

section Entries

variable {es es' : Entries} {key name : String} {n : Node} {v : Value}

theorem entriesToValues_eq_map (es : Entries) :
    entriesToValues es = es.map fun e => (e.1, e.2.toValue) := by
  induction es with
  | nil => rw [entriesToValues, List.map_nil]
  | cons e es ih => rw [entriesToValues, ih, List.map_cons]

theorem elementsToValues_eq_map (elements : List Entries) :
    elementsToValues elements = elements.map Entries.toValue := by
  induction elements with
  | nil => rw [elementsToValues, List.map_nil]
  | cons es elements ih => rw [elementsToValues, ih, List.map_cons, Entries.toValue]

theorem entriesToValues_put (key : String) (n : Node) (es : Entries) :
    entriesToValues (es.put key n) = Value.put key n.toValue (entriesToValues es) := by
  induction es with
  | nil => rw [Entries.put, entriesToValues, entriesToValues, entriesToValues, Value.put]
  | cons e es ih =>
    rw [Entries.put, entriesToValues, Value.put]
    split
    · rw [entriesToValues]
    · rw [entriesToValues, ih]

theorem distinct_entries_nil : Distinct (Entries.toValue []) := by
  rw [Entries.toValue, entriesToValues]
  exact Value.distinct_empty

theorem distinct_entries_put (h : es.toValue.Distinct) (key : String) (hn : n.toValue.Distinct) :
    (es.put key n).toValue.Distinct := by
  rw [Entries.toValue, entriesToValues_put]
  exact Value.distinct_put key hn h

theorem distinct_of_lookup (h : es.toValue.Distinct) (hn : es.lookup key = some n) :
    n.toValue.Distinct := by
  rw [Entries.toValue, entriesToValues_eq_map] at h
  exact h.entry (List.mem_map_of_mem (Value.mem_of_lookup hn))

theorem distinct_table_iff : (Node.table origin es).toValue.Distinct ↔ es.toValue.Distinct := by
  rw [Node.toValue, Entries.toValue]

theorem distinct_tables_iff {elements : List Entries} :
    (Node.tables elements).toValue.Distinct ↔ ∀ es ∈ elements, es.toValue.Distinct := by
  rw [Node.toValue, elementsToValues_eq_map]
  constructor
  · intro h es hes
    cases h with
    | list h => exact h _ (List.mem_reverse.mpr (List.mem_map_of_mem hes))
  · intro h
    refine .list fun v hv => ?_
    obtain ⟨es, hes, rfl⟩ := List.mem_map.mp (List.mem_reverse.mp hv)
    exact h es hes

/-- A change of a table after which still no key is there twice. -/
def KeepsDistinct (change : TableOrigin → Entries → Option Entries) : Prop :=
  ∀ origin es es', change origin es = some es' → es.toValue.Distinct → es'.toValue.Distinct

theorem keepsDistinct_within (made : TableOrigin) (hchange : KeepsDistinct change)
    (path : List String) : KeepsDistinct (Entries.within made change path) := by
  intro origin es es' h hes
  induction path generalizing origin es es' with
  | nil => exact hchange origin es es' h hes
  | cons k path ih =>
    rw [Entries.within] at h
    split at h
    · obtain ⟨inner, hinner, rfl⟩ := Option.map_eq_some_iff.mp h
      refine distinct_entries_put hes k (distinct_table_iff.mpr ?_)
      exact ih _ _ _ hinner distinct_entries_nil
    · rename_i hk
      split at h
      · cases h
      · obtain ⟨inner, hinner, rfl⟩ := Option.map_eq_some_iff.mp h
        refine distinct_entries_put hes k (distinct_table_iff.mpr ?_)
        exact ih _ _ _ hinner (distinct_table_iff.mp (distinct_of_lookup hes hk))
    · rename_i hk
      obtain ⟨inner, hinner, rfl⟩ := Option.map_eq_some_iff.mp h
      have helements := distinct_tables_iff.mp (distinct_of_lookup hes hk)
      rw [List.forall_mem_cons] at helements
      refine distinct_entries_put hes k (distinct_tables_iff.mpr ?_)
      exact List.forall_mem_cons.mpr ⟨ih _ _ _ hinner helements.1, helements.2⟩
    · cases h

theorem keepsDistinct_addValue (hv : v.Distinct) (dotted : Bool) (key : String) :
    KeepsDistinct (Entries.addValue dotted key v) := by
  intro origin es es' h hes
  rw [Entries.addValue] at h
  split at h
  · cases h
  · cases h
    exact distinct_entries_put hes key (by rwa [Node.toValue])

theorem keepsDistinct_openTable (key : String) : KeepsDistinct (Entries.openTable key) := by
  intro origin es es' h hes
  rw [Entries.openTable] at h
  split at h
  · cases h
    exact distinct_entries_put hes key (distinct_table_iff.mpr distinct_entries_nil)
  · rename_i hk
    cases h
    refine distinct_entries_put hes key (distinct_table_iff.mpr ?_)
    exact distinct_table_iff.mp (distinct_of_lookup hes hk)
  · cases h

theorem keepsDistinct_openElement (key : String) : KeepsDistinct (Entries.openElement key) := by
  intro origin es es' h hes
  rw [Entries.openElement] at h
  split at h
  · cases h
    refine distinct_entries_put hes key (distinct_tables_iff.mpr ?_)
    exact List.forall_mem_singleton.mpr distinct_entries_nil
  · rename_i hk
    cases h
    refine distinct_entries_put hes key (distinct_tables_iff.mpr ?_)
    have helements := distinct_tables_iff.mp (distinct_of_lookup hes hk)
    exact List.forall_mem_cons.mpr ⟨distinct_entries_nil, helements⟩
  · cases h

theorem distinct_insert {header : List String} (h : es.insert header path key v = some es')
    (hes : es.toValue.Distinct) (hv : v.Distinct) : es'.toValue.Distinct := by
  have hadd := keepsDistinct_addValue hv (!path.isEmpty) key
  have hinner := keepsDistinct_within .dotted hadd path
  exact keepsDistinct_within .passage hinner header _ _ _ h hes

theorem distinct_foldlM_insert {pairs : List ((List String × String) × Value)}
    (h : pairs.foldlM (fun es ((path, k), v) => Entries.insert es [] path k v) es = some es')
    (hes : es.toValue.Distinct) (hpairs : ∀ pair ∈ pairs, pair.2.Distinct) :
    es'.toValue.Distinct := by
  induction pairs generalizing es with
  | nil =>
    cases h
    exact hes
  | cons pair pairs ih =>
    rw [List.forall_mem_cons] at hpairs
    obtain ⟨next, hnext, h⟩ := Option.bind_eq_some_iff.mp h
    exact ih h (distinct_insert hnext hes hpairs.1) hpairs.2

end Entries

section Readers

def Yields (P : α → Prop) (r : Reader α) : Prop :=
  ∀ cs a rest, r cs = some (a, rest) → P a

variable {P : α → Prop} {Q : β → Prop}

theorem Yields.any (r : Reader α) : Yields (fun _ => True) r :=
  fun _ _ _ _ => trivial

theorem Yields.pure {a : α} (ha : P a) : Yields P (Pure.pure a : Reader α) := by
  intro cs b rest h
  cases h
  exact ha

theorem Yields.bind {r : Reader α} {f : α → Reader β} (hr : Yields P r)
    (hf : ∀ a, P a → Yields Q (f a)) : Yields Q (r >>= f) := by
  intro cs b rest h
  obtain ⟨⟨a, between⟩, ha, hb⟩ := Option.bind_eq_some_iff.mp h
  exact hf a (hr _ _ _ ha) _ _ _ hb

theorem Yields.andThen {r : Reader α} {f : α → Reader β} (hf : ∀ a, Yields Q (f a)) :
    Yields Q (r >>= f) :=
  (Yields.any r).bind fun a _ => hf a

theorem Yields.orElse {r s : Reader α} (hr : Yields P r) (hs : Yields P s) :
    Yields P (r <|> s) := by
  intro cs a rest h
  change (r cs).orElse (fun _ => s cs) = some (a, rest) at h
  cases hcs : r cs with
  | none =>
    rw [hcs] at h
    exact hs _ _ _ h
  | some read =>
    rw [hcs] at h
    exact hr _ _ _ (hcs.trans h)

theorem Yields.manyTo {r : Reader α} (hr : Yields P r) (n : Nat) :
    Yields (fun as => ∀ a ∈ as, P a) (r.manyTo n) := by
  induction n with
  | zero => exact .pure nofun
  | succ n ih =>
    refine .orElse (hr.bind fun a ha => ih.bind fun as has => .pure ?_) (.pure nofun)
    exact List.forall_mem_cons.mpr ⟨ha, has⟩

theorem Yields.many {r : Reader α} (hr : Yields P r) :
    Yields (fun as => ∀ a ∈ as, P a) r.many :=
  fun cs => hr.manyTo cs.length cs

theorem Yields.lift {x : Option α} (h : ∀ a, x = some a → P a) :
    Yields P (liftM x : Reader α) := by
  intro cs a rest hlift
  obtain ⟨b, hb, hpure⟩ := Option.bind_eq_some_iff.mp hlift
  cases hpure
  exact h _ hb

end Readers

section Values

variable {value : Reader Value}

theorem distinct_signedInteger? (h : signedInteger? negative n = some v) : v.Distinct := by
  simp only [signedInteger?] at h
  obtain ⟨_, ⟨⟩⟩ := Option.ite_none_right_eq_some.mp h
  exact .integer

theorem distinct_basedInteger? (h : basedInteger? base cs = some v) : v.Distinct := by
  obtain ⟨_, _, h⟩ := Option.bind_eq_some_iff.mp h
  obtain ⟨_, _, h⟩ := Option.bind_eq_some_iff.mp h
  exact distinct_signedInteger? h

theorem distinct_integer? (h : integer? cs = some v) : v.Distinct := by
  unfold integer? at h
  split at h
  · exact distinct_basedInteger? h
  · exact distinct_basedInteger? h
  · exact distinct_basedInteger? h
  · obtain ⟨_, _, h⟩ := Option.bind_eq_some_iff.mp h
    obtain ⟨_, _, h⟩ := Option.bind_eq_some_iff.mp h
    exact distinct_signedInteger? h

theorem eq_of_real? (h : real? cs = some v) : v = .real (.ofList cs) := by
  simp only [real?, failure, Option.bind_eq_bind, Option.pure_def, Option.bind_none,
    Option.bind_some] at h
  split at h
  · exact (Option.some.inj h).symm
  · rw [Option.ite_none_left_eq_some] at h
    obtain ⟨_, h⟩ := h
    obtain ⟨whole, _, h⟩ := Option.bind_eq_some_iff.mp h
    -- What is left gives this value or none, whatever the fraction and the exponent are.
    split at h <;> split at h <;>
      simp only [Option.bind_eq_some_iff, Option.ite_none_left_eq_some, Option.some.injEq] at h <;>
      grind

theorem distinct_moment (literal : String) : (Value.moment literal).Distinct := by
  refine .table (List.nodup_singleton _) ?_
  exact List.forall_mem_singleton.mpr .text

theorem distinct_scalar? (h : scalar? cs = some v) : v.Distinct := by
  rw [scalar?] at h
  split at h
  · cases h
    exact .boolean
  · split at h
    · cases h
      exact .boolean
    · split at h
      · cases h
        exact distinct_moment _
      · rcases Option.or_eq_some_iff.mp h with h | ⟨_, h⟩
        · exact distinct_integer? h
        · rw [eq_of_real? h]
          exact .real

theorem yields_scalar : Yields Distinct scalar := by
  intro cs v rest h
  simp only [scalar] at h
  split at h
  · cases h
    exact distinct_moment _
  · obtain ⟨w, hw, h⟩ := Option.bind_eq_some_iff.mp h
    cases h
    exact distinct_scalar? hw

theorem yields_flatValue : Yields Distinct flatValue := by
  refine .andThen fun c => ?_
  split
  · exact .andThen fun _ => .pure .text
  · exact .andThen fun _ => .pure .text
  · exact yields_scalar

theorem yields_assignment (h : Yields Distinct value) :
    Yields (·.2.Distinct) (assignment value) := by
  refine .andThen fun k => .andThen fun _ => .andThen fun _ => .andThen fun _ => ?_
  exact h.bind fun v hv => .pure hv

theorem yields_element (h : Yields Distinct value) : Yields Distinct (element value) := by
  refine .andThen fun _ => h.bind fun v hv => ?_
  exact .andThen fun _ => .pure hv

theorem yields_elements (h : Yields Distinct value) :
    Yields (fun vs => ∀ v ∈ vs, Distinct v) (elements value) := by
  refine (yields_element h).bind fun v hv => ?_
  have hnext : Yields Distinct (nextElement value) := .andThen fun _ => yields_element h
  refine hnext.many.bind fun vs hvs => .andThen fun _ => .pure ?_
  exact List.forall_mem_cons.mpr ⟨hv, hvs⟩

theorem yields_listValue (h : Yields Distinct value) : Yields Distinct (listValue value) := by
  have hitems : Yields (fun vs => ∀ v ∈ vs, Distinct v) (elements value <|> pure []) :=
    (yields_elements h).orElse (.pure nofun)
  refine hitems.bind fun vs hvs => .andThen fun _ => .andThen fun _ => ?_
  exact .pure (.list hvs)

theorem yields_assignments (h : Yields Distinct value) :
    Yields (fun pairs => ∀ pair ∈ pairs, pair.2.Distinct) (assignments value) := by
  refine (yields_assignment h).bind fun pair hpair => ?_
  have hnext : Yields (·.2.Distinct) (nextAssignment value) :=
    .andThen fun _ => .andThen fun _ => .andThen fun _ => yields_assignment h
  refine hnext.many.bind fun pairs hpairs => .pure ?_
  exact List.forall_mem_cons.mpr ⟨hpair, hpairs⟩

theorem yields_tableValue (h : Yields Distinct value) : Yields Distinct (tableValue value) := by
  have hpairs : Yields (fun pairs => ∀ pair ∈ pairs, pair.2.Distinct)
      (assignments value <|> pure []) :=
    (yields_assignments h).orElse (.pure nofun)
  refine .andThen fun _ => hpairs.bind fun pairs hpairs => ?_
  refine .andThen fun _ => .andThen fun _ => ?_
  have hes : Yields (fun es => Distinct (Entries.toValue es)) (liftM (pairs.foldlM
      (fun es ((path, k), v) => Entries.insert es [] path k v) [] : Option Entries)) :=
    .lift fun es hes => distinct_foldlM_insert hes distinct_entries_nil hpairs
  exact hes.bind fun es hes => .pure hes

theorem yields_valueTo (depth : Nat) : Yields Distinct (valueTo depth) := by
  induction depth with
  | zero => exact yields_flatValue
  | succ depth ih =>
    refine .andThen fun c => ?_
    split
    · exact .andThen fun _ => yields_listValue ih
    · exact .andThen fun _ => yields_tableValue ih
    · exact yields_flatValue

end Values

section Documents

def Statement.Distinct (s : Statement) : Prop :=
  ∀ path name v, s = .assign path name v → v.Distinct

theorem yields_header : Yields Statement.Distinct header := by
  refine .andThen fun double => .andThen fun _ => .andThen fun k => .andThen fun _ =>
    .andThen fun _ => ?_
  split
  · exact .andThen fun _ => .pure nofun
  · exact .pure nofun

theorem yields_statement : Yields Statement.Distinct statement := by
  -- Whatever a line says, blanks and a comment may follow.
  have hend (s : Statement) (hs : s.Distinct) : Yields Statement.Distinct (do
      spaces
      comment
      return s) :=
    .andThen fun _ => .andThen fun _ => .pure hs
  have hnothing : Yields Statement.Distinct (Pure.pure .nothing) := .pure nofun
  refine .andThen fun _ => .andThen fun c => ?_
  split
  · exact hnothing.bind hend
  · exact hnothing.bind hend
  · exact hnothing.bind hend
  · exact hnothing.bind hend
  · exact .andThen fun _ => yields_header.bind hend
  · refine (yields_assignment (yields_valueTo _)).bind fun pair hpair => ?_
    refine Yields.bind (.pure ?_) hend
    rintro _ _ _ ⟨⟩
    exact hpair

theorem distinct_step {d d' : Document} (h : d.step s = some d') (hs : s.Distinct)
    (hd : d.tables.toValue.Distinct) : d'.tables.toValue.Distinct := by
  cases s with
  | nothing =>
    cases h
    exact hd
  | header path name =>
    obtain ⟨es, hes, rfl⟩ := Option.map_eq_some_iff.mp h
    exact keepsDistinct_within .passage (keepsDistinct_openTable name) path _ _ _ hes hd
  | elementHeader path name =>
    obtain ⟨es, hes, rfl⟩ := Option.map_eq_some_iff.mp h
    exact keepsDistinct_within .passage (keepsDistinct_openElement name) path _ _ _ hes hd
  | assign path name v =>
    obtain ⟨es, hes, rfl⟩ := Option.map_eq_some_iff.mp h
    exact distinct_insert hes hd (hs path name v rfl)

theorem distinct_readLines {d d' : Document} (h : readLines n d cs = some d')
    (hd : d.tables.toValue.Distinct) : d'.tables.toValue.Distinct := by
  induction n generalizing d cs with
  | zero => cases h
  | succ n ih =>
    rw [readLines] at h
    obtain ⟨⟨s, rest⟩, hs, h⟩ := Option.bind_eq_some_iff.mp h
    obtain ⟨next, hnext, h⟩ := Option.bind_eq_some_iff.mp h
    have hd := distinct_step hnext (yields_statement _ _ _ hs) hd
    split at h
    · cases h
      exact hd
    · obtain ⟨_, _, h⟩ := Option.bind_eq_some_iff.mp h
      exact ih h hd

/-- What a document describes is a table, and neither it nor a table inside it has a key twice. -/
theorem properTable_parse? (h : parse? source = some v) : v.ProperTable := by
  obtain ⟨d, hd, rfl⟩ := Option.map_eq_some_iff.mp h
  exact ⟨⟨_, rfl⟩, distinct_readLines hd distinct_entries_nil⟩

end Documents

end Scaffold.Toml
