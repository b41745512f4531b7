import Scaffold.Proofs.Report.Widths
import Scaffold.Report.Rendering

namespace Scaffold
set_option autoImplicit true

namespace Table

/-- What a column shows of a cell: all of it, filled up with blanks on one side, or the front of it
with a mark. -/
structure Shows (width : Nat) (cell shown : List Char) : Prop where
  length : shown.length = width
  whole : cell.length ≤ width → ∃ blanks, (∀ c ∈ blanks, c = ' ') ∧
    (shown = cell ++ blanks ∨ shown = blanks ++ cell)
  cut : width < cell.length → shown = cell.take (width - 1) ++ [ellipsis]

/-- The cell of a row in a column; a mark stands for one that is not there. -/
def cellAt (row : List (List Char)) (i : Nat) : List Char :=
  row[i]?.getD missingCell

/-- A line in which the columns show the cells of a row. -/
def Lays (widths : List Nat) (row : List (List Char)) (line : List Char) : Prop :=
  ∃ shown, line = separator.intercalate shown ∧ shown.length = widths.length ∧
    ∀ i w s, widths[i]? = some w → shown[i]? = some s → Shows w (cellAt row i) s

section Cells

theorem length_truncate_le (h : 1 ≤ width) (cell : List Char) :
    (truncate width cell).length ≤ width := by
  rw [truncate]
  split
  · assumption
  · rw [List.length_append, List.length_take, List.length_singleton]
    omega

theorem truncate_of_le (h : cell.length ≤ width) : truncate width cell = cell :=
  if_pos h

theorem truncate_of_lt (h : width < cell.length) :
    truncate width cell = cell.take (width - 1) ++ [ellipsis] :=
  if_neg (Nat.not_le.mpr h)

theorem length_truncate_of_lt (hpos : 1 ≤ width) (h : width < cell.length) :
    (truncate width cell).length = width := by
  rw [truncate_of_lt h, List.length_append, List.length_take, List.length_singleton]
  omega

theorem shows_padEnd (h : 1 ≤ width) (cell : List Char) :
    Shows width cell (padEnd width (truncate width cell)) where
  length := by
    have hle := length_truncate_le h cell
    rw [padEnd, List.length_append, List.length_replicate]
    omega
  whole hle := by
    rw [truncate_of_le hle]
    exact ⟨_, fun _ => List.eq_of_mem_replicate, .inl rfl⟩
  cut hlt := by
    rw [padEnd, length_truncate_of_lt h hlt, Nat.sub_self, List.replicate_zero, List.append_nil,
      truncate_of_lt hlt]

theorem shows_padStart (h : 1 ≤ width) (cell : List Char) :
    Shows width cell (padStart width (truncate width cell)) where
  length := by
    have hle := length_truncate_le h cell
    rw [padStart, List.length_append, List.length_replicate]
    omega
  whole hle := by
    rw [truncate_of_le hle]
    exact ⟨_, fun _ => List.eq_of_mem_replicate, .inr rfl⟩
  cut hlt := by
    rw [padStart, length_truncate_of_lt h hlt, Nat.sub_self, List.replicate_zero, List.nil_append,
      truncate_of_lt hlt]

theorem shows_headerCell (h : 1 ≤ width) (header : List Char) :
    Shows width header (headerCell width header) :=
  shows_padEnd h header

theorem shows_bodyCell (h : 1 ≤ width) (cell : List Char) :
    Shows width cell (bodyCell width cell) := by
  rw [bodyCell]
  split
  · exact shows_padStart h cell
  · exact shows_padEnd h cell

theorem Shows.mem (h : Shows width cell shown) (hc : c ∈ shown) :
    c ∈ cell ∨ c = ' ' ∨ c = ellipsis := by
  rcases Nat.lt_or_ge width cell.length with hw | hw
  · rw [h.cut hw, List.mem_append, List.mem_singleton] at hc
    rcases hc with hc | hc
    · exact .inl (List.mem_of_mem_take hc)
    · exact .inr (.inr hc)
  · obtain ⟨blanks, hblanks, rfl | rfl⟩ := h.whole hw
    · rcases List.mem_append.mp hc with hc | hc
      · exact .inl hc
      · exact .inr (.inl (hblanks c hc))
    · rcases List.mem_append.mp hc with hc | hc
      · exact .inr (.inl (hblanks c hc))
      · exact .inl hc

end Cells

section Lines

theorem length_intercalate (sep : List Char) (parts : List (List Char)) :
    (sep.intercalate parts).length =
      (parts.map List.length).sum + sep.length * (parts.length - 1) := by
  induction parts with
  | nil => rfl
  | cons p parts ih =>
    cases parts with
    | nil => simp
    | cons q parts =>
      rw [List.intercalate_cons_cons]
      simp only [List.length_append, List.map_cons, List.sum_cons, List.length_cons] at ih ⊢
      rw [ih]
      simp only [Nat.add_sub_cancel, Nat.mul_add, Nat.mul_one]
      omega

theorem mem_intercalate (h : c ∈ separator.intercalate parts) :
    c = ' ' ∨ ∃ p ∈ parts, c ∈ p := by
  induction parts with
  | nil => cases h
  | cons p parts ih =>
    cases parts with
    | nil =>
      rw [List.intercalate_singleton] at h
      exact .inr ⟨p, List.mem_singleton_self p, h⟩
    | cons q parts =>
      rw [List.intercalate_cons_cons, List.mem_append, List.mem_append] at h
      rcases h with (h | h) | h
      · exact .inr ⟨p, List.mem_cons_self, h⟩
      · exact .inl (by simpa [separator] using h)
      · rcases ih h with hblank | ⟨r, hr, hc⟩
        · exact .inl hblank
        · exact .inr ⟨r, List.mem_cons_of_mem p hr, hc⟩

theorem Lays.length (h : Lays widths row line) : line.length = totalWidth widths := by
  obtain ⟨shown, rfl, hlen, hshows⟩ := h
  have hwidths : shown.map List.length = widths := by
    refine List.ext_getElem (by rw [List.length_map, hlen]) ?_
    intro i hs hw
    rw [List.length_map] at hs
    rw [List.getElem_map]
    exact (hshows i _ _ (List.getElem?_eq_getElem hw) (List.getElem?_eq_getElem hs)).length
  rw [length_intercalate, hwidths, hlen, totalWidth_eq]
  rfl

theorem mem_cellAt (h : c ∈ cellAt row i) : (∃ cell ∈ row, c ∈ cell) ∨ c ∈ missingCell := by
  rw [cellAt] at h
  cases hi : row[i]? with
  | none =>
    rw [hi] at h
    exact .inr h
  | some cell =>
    rw [hi] at h
    exact .inl ⟨cell, List.mem_of_getElem? hi, h⟩

theorem Lays.single (h : Lays widths row line) (hrow : ∀ cell ∈ row, '\n' ∉ cell) :
    '\n' ∉ line := by
  obtain ⟨shown, rfl, hlen, hshows⟩ := h
  intro hc
  rcases mem_intercalate hc with hblank | ⟨s, hs, hc⟩
  · exact absurd hblank (by decide)
  · obtain ⟨i, hi, rfl⟩ := List.getElem_of_mem hs
    have hw : i < widths.length := hlen ▸ hi
    have hshow := hshows i _ _ (List.getElem?_eq_getElem hw) (List.getElem?_eq_getElem hi)
    rcases hshow.mem hc with hc | hblank | hmark
    · rcases mem_cellAt hc with ⟨cell, hcell, hc⟩ | hc
      · exact hrow cell hcell hc
      · exact absurd hc (by decide)
    · exact absurd hblank (by decide)
    · exact absurd hmark (by decide)

theorem lays_headerLine (hpos : ∀ w ∈ widths, 1 ≤ w) (hlen : widths.length = headers.length) :
    Lays widths headers (headerLine widths headers) := by
  refine ⟨_, rfl, by rw [List.length_zipWith, hlen, Nat.min_self], ?_⟩
  intro i w s hw hs
  obtain ⟨w', header, hw', hheader, rfl⟩ := List.getElem?_zipWith_eq_some.mp hs
  obtain rfl := Option.some.inj (hw.symm.trans hw')
  rw [cellAt, hheader]
  exact shows_headerCell (hpos w (List.mem_of_getElem? hw)) header

theorem lays_rowLine (hpos : ∀ w ∈ widths, 1 ≤ w) (row : List (List Char)) :
    Lays widths row (rowLine widths row) := by
  refine ⟨_, rfl, List.length_mapIdx, ?_⟩
  intro i w s hw hs
  rw [List.getElem?_mapIdx, hw] at hs
  obtain rfl := Option.some.inj hs
  exact shows_bodyCell (hpos w (List.mem_of_getElem? hw)) _

end Lines

section Widths

theorem neededWidths_pos (h : ∀ header ∈ headers, header ≠ []) :
    ∀ w ∈ neededWidths headers rows, 1 ≤ w := by
  intro w hw
  obtain ⟨i, hi, rfl⟩ := List.mem_mapIdx.mp hw
  rw [neededWidth, List.foldl_max]
  have hpos := List.length_pos_iff.mpr (h _ (List.getElem_mem hi))
  omega

theorem CutAt.pos (h : CutAt level ws vs) (hlevel : leastWidth ≤ level) (hpos : ∀ w ∈ ws, 1 ≤ w) :
    ∀ v ∈ vs, 1 ≤ v := by
  have hleast : 1 ≤ leastWidth := by decide
  induction h with
  | nil => nofun
  | cons hw _ ih =>
    obtain ⟨hstay, hcut⟩ := hw
    rw [List.forall_mem_cons] at hpos ⊢
    exact ⟨by omega, ih hpos.2⟩

theorem fitWidths_pos (h : ∀ w ∈ widths, 1 ≤ w) : ∀ w ∈ fitWidths limit widths, 1 ≤ w := by
  obtain ⟨level, hlevel, hcut⟩ := exists_cutAt_fitWidths limit widths
  exact hcut.pos hlevel h

theorem length_fitWidths (limit : Option Nat) (widths : List Nat) :
    (fitWidths limit widths).length = widths.length := by
  obtain ⟨level, _, hcut⟩ := exists_cutAt_fitWidths limit widths
  exact hcut.length_eq.symm

end Widths

section Render

variable {headers : List String} {rows : List (List String)}

def chars (row : List String) : List (List Char) :=
  row.map String.toList

/-- The widths that the columns of a table have in the end. -/
def finalWidths (limit : Option Nat) (headers : List String) (rows : List (List String)) :
    List Nat :=
  fitWidths limit (neededWidths (chars headers) (rows.map chars))

theorem length_finalWidths (limit : Option Nat) (headers : List String)
    (rows : List (List String)) : (finalWidths limit headers rows).length = headers.length := by
  rw [finalWidths, length_fitWidths, neededWidths, List.length_mapIdx, chars, List.length_map]

theorem finalWidths_pos (h : ∀ header ∈ headers, header ≠ "") :
    ∀ w ∈ finalWidths limit headers rows, 1 ≤ w := by
  refine fitWidths_pos (neededWidths_pos ?_)
  rw [chars, List.forall_mem_map]
  exact fun header hh hnil => h header hh (String.toList_eq_nil_iff.mp hnil)

/-- A table fits its limit, or its columns are as narrow as they may get. -/
theorem finalWidths_fit (n : Nat) (headers : List String) (rows : List (List String)) :
    totalWidth (finalWidths (some n) headers rows) ≤ n ∨
      ∀ w ∈ finalWidths (some n) headers rows, w ≤ leastWidth := by
  rw [finalWidths, fitWidths]
  rcases Nat.le_total (totalWidth (capped (neededWidths (chars headers) (rows.map chars)))) n
    with h | h
  · left
    rw [totalWidth_shrinkTo]
    omega
  · right
    rw [shrinkTo_eq_capped h, capped, List.forall_mem_map]
    exact fun w _ => Nat.min_le_left leastWidth w

theorem lays_header (limit : Option Nat) (rows : List (List String))
    (h : ∀ header ∈ headers, header ≠ "") :
    Lays (finalWidths limit headers rows) (chars headers)
      (headerLine (finalWidths limit headers rows) (chars headers)) := by
  refine lays_headerLine (finalWidths_pos h) ?_
  rw [length_finalWidths, chars, List.length_map]

theorem lines_eq (limit : Option Nat) (rows : List (List String))
    (h : ∀ header ∈ headers, header ≠ "") :
    lines limit (chars headers) (rows.map chars) =
      headerLine (finalWidths limit headers rows) (chars headers) ::
        List.replicate (totalWidth (finalWidths limit headers rows)) '-' ::
        rows.map fun row => rowLine (finalWidths limit headers rows) (chars row) := by
  rw [← (lays_header limit rows h).length, lines, linesAt, List.map_map]
  rfl

/-- A line of a table shows the headers or a row, or it is the divider. -/
theorem mem_lines (h : ∀ header ∈ headers, header ≠ "")
    (hline : line ∈ lines limit (chars headers) (rows.map chars)) :
    (∃ row ∈ headers :: rows, Lays (finalWidths limit headers rows) (chars row) line) ∨
      line = List.replicate (totalWidth (finalWidths limit headers rows)) '-' := by
  rw [lines_eq limit rows h, List.mem_cons, List.mem_cons, List.mem_map] at hline
  rcases hline with rfl | rfl | ⟨row, hrow, rfl⟩
  · exact .inl ⟨headers, List.mem_cons_self, lays_header limit rows h⟩
  · exact .inr rfl
  · exact .inl ⟨row, List.mem_cons_of_mem headers hrow, lays_rowLine (finalWidths_pos h) _⟩

theorem length_of_mem_lines (h : ∀ header ∈ headers, header ≠ "")
    (hline : line ∈ lines limit (chars headers) (rows.map chars)) :
    line.length = totalWidth (finalWidths limit headers rows) := by
  rcases mem_lines h hline with ⟨row, _, hlays⟩ | rfl
  · exact hlays.length
  · exact List.length_replicate

theorem splitOn_render (limit : Option Nat) (h : ∀ header ∈ headers, header ≠ "")
    (hsingle : ∀ row ∈ headers :: rows, ∀ cell ∈ row, '\n' ∉ cell.toList) :
    (render limit headers rows).toList.splitOn '\n' =
      lines limit (chars headers) (rows.map chars) := by
  rw [render, String.toList_ofList]
  refine List.splitOn_intercalate '\n' ?_ ?_
  · intro line hline
    rcases mem_lines h hline with ⟨row, hrow, hlays⟩ | rfl
    · exact hlays.single (List.forall_mem_map.mpr (hsingle row hrow))
    · exact fun hc => absurd (List.eq_of_mem_replicate hc) (by decide)
  · exact List.cons_ne_nil _ _

end Render

end Table

namespace Summary

theorem single_toString (n : Nat) : '\n' ∉ (toString n).toList := by
  intro h
  rw [Nat.toString_eq_repr, Nat.toList_repr] at h
  have hdigit := Nat.isDigit_of_mem_toDigits (by decide) (by decide) h
  exact absurd hdigit (by decide)

theorem single_cells (s : Summary) :
    ∀ row ∈ [headers, s.counts.map fun n => toString n], ∀ cell ∈ row, '\n' ∉ cell.toList := by
  rw [List.forall_mem_cons, List.forall_mem_singleton, List.forall_mem_map]
  exact ⟨by decide, fun n _ => single_toString n⟩

theorem length_le_of_mem_toTable (s : Summary) (hn : 40 ≤ n)
    (hline : line ∈ (s.toTable (some n)).toList.splitOn '\n') : line.length ≤ n := by
  have hheaders : ∀ header ∈ headers, header ≠ "" := by decide
  rw [toTable, Table.splitOn_render _ hheaders s.single_cells] at hline
  rw [Table.length_of_mem_lines hheaders hline]
  rcases Table.finalWidths_fit n headers [s.counts.map fun n => toString n] with hfits | hleast
  · exact hfits
  · refine Nat.le_trans (Table.totalWidth_le hleast) ?_
    rw [Table.length_finalWidths]
    exact Nat.le_trans (by decide) hn

end Summary

/-- The lines of a table all have the width of its columns and of what stands between them, and are
two more than its rows. A table fits its limit unless its columns are as narrow as they may get. A
column shows all of a cell that fits it, and else the front of the cell with a mark. So the counts
of a run fit every terminal that is not too narrow to count. -/
theorem tables_aligned :
    (∀ (limit : Option Nat) (headers : List String) (rows : List (List String)),
      (∀ header ∈ headers, header ≠ "") →
      (∀ row ∈ headers :: rows, ∀ cell ∈ row, '\n' ∉ cell.toList) →
      let widths := Table.finalWidths limit headers rows
      let width := widths.sum + 2 * (headers.length - 1)
      let shown := (Table.render limit headers rows).toList.splitOn '\n'
      widths.length = headers.length ∧ shown.length = rows.length + 2 ∧
      (∀ line ∈ shown, line.length = width) ∧
      (∀ n, limit = some n → width ≤ n ∨ ∀ w ∈ widths, w ≤ Table.leastWidth) ∧
      ∃ header divider body, shown = header :: divider :: body ∧
        Table.Lays widths (Table.chars headers) header ∧
        List.Forall₂ (fun row line => Table.Lays widths (Table.chars row) line) rows body) ∧
    ∀ (s : Summary) (n : Nat), 40 ≤ n →
      ∀ line ∈ (s.render .table (some n)).toList.splitOn '\n', line.length ≤ n := by
  refine ⟨?_, fun s n hn line => s.length_le_of_mem_toTable hn⟩
  intro limit headers rows hheaders hsingle widths width shown
  have hshown : shown = _ := Table.splitOn_render limit hheaders hsingle
  have hwidth : width = Table.totalWidth widths := by
    rw [Table.totalWidth_eq, Table.length_finalWidths]
  rw [hshown, hwidth]
  refine ⟨Table.length_finalWidths limit headers rows, ?_,
    fun line => Table.length_of_mem_lines hheaders, ?_, ?_⟩
  · rw [Table.lines_eq limit rows hheaders, List.length_cons, List.length_cons, List.length_map]
  · rintro n rfl
    exact Table.finalWidths_fit n headers rows
  · refine ⟨_, _, _, Table.lines_eq limit rows hheaders, Table.lays_header limit rows hheaders, ?_⟩
    rw [List.forall₂_map_right_iff, List.forall₂_same]
    exact fun row _ => Table.lays_rowLine (Table.finalWidths_pos hheaders) _

/-- Headers that are cut, a row that ends early and one that goes on for too long; and a counter at
its largest. -/
theorem tables_aligned_ragged :
    let headers := ["Related classes", "Added methods"]
    let rows := [["1"], ["12345678901234567890", "x", "y"]]
    let counts : Summary := ⟨18446744073709551615, 9, 8, 7⟩
    ((∀ header ∈ headers, header ≠ "") ∧
      ∀ row ∈ headers :: rows, ∀ cell ∈ row, '\n' ∉ cell.toList) ∧
    Table.finalWidths (some 20) headers rows = [9, 9] ∧
    (∀ line ∈ (Table.render (some 20) headers rows).toList.splitOn '\n', line.length = 20) ∧
    ∀ line ∈ (counts.render .table (some 40)).toList.splitOn '\n', line.length ≤ 40 := by
  intro headers rows counts
  have hheaders : ∀ header ∈ headers, header ≠ "" := by decide
  have hsingle : ∀ row ∈ headers :: rows, ∀ cell ∈ row, '\n' ∉ cell.toList := by decide
  have hwidths : Table.finalWidths (some 20) headers rows = [9, 9] := by decide
  obtain ⟨htable, hsummary⟩ := tables_aligned
  obtain ⟨_, _, hlength, _⟩ := htable (some 20) headers rows hheaders hsingle
  rw [hwidths] at hlength
  exact ⟨⟨hheaders, hsingle⟩, hwidths, hlength, hsummary counts 40 (Nat.le_refl 40)⟩

end Scaffold
