import Mathlib.Algebra.Ring.Nat
import Mathlib.Data.Prod.Lex
import Mathlib.Data.String.Basic
import Scaffold.Proofs.Source.LineEnds
import Scaffold.Proofs.Text.Blank
import Scaffold.Source.Position

namespace Scaffold.Position
set_option autoImplicit true

variable {line column n : Nat} {cs : List Char}

/-- The number of bytes before the place behind `column` characters of the piece that has `line`
pieces before it, each of those ended by a line feed. -/
def bytesBefore? (pieces : List (List Char)) (line column : Nat) : Option Nat :=
  pieces[line]?.bind fun piece =>
    if column ≤ piece.length then
      some (((pieces.take line).map (String.utf8Len · + 1)).sum +
        String.utf8Len (piece.take column))
    else none

/-- The offset that a position stands for, if the source has a line and a column for it. -/
def offset? (source : String) : Position → Option Nat
  | ⟨line + 1, column + 1⟩ =>
    bytesBefore? (Text.splitWhere (· == '\n') source.toList) line column
  | _ => none

theorem after_nil : after [] = ⟨1, 1⟩ :=
  rfl

theorem one_le_line (cs : List Char) : 1 ≤ (after cs).line :=
  Nat.le_add_left ..

theorem one_le_column (cs : List Char) : 1 ≤ (after cs).column :=
  Nat.le_add_left ..

/-- A line feed starts a line, any other character takes up a column. -/
theorem after_concat (cs : List Char) (c : Char) :
    after (cs ++ [c]) =
      if c = '\n' then ⟨(after cs).line + 1, 1⟩ else ⟨(after cs).line, (after cs).column + 1⟩ := by
  by_cases hc : c = '\n'
  · simp [after, hc]
  · simp [after, hc]

theorem after_cons (c : Char) (cs : List Char) :
    after (c :: cs) =
      if c = '\n' then ⟨(after cs).line + 1, (after cs).column⟩
      else if (after cs).line = 1 then ⟨1, (after cs).column + 1⟩ else after cs := by
  induction cs using List.reverseRecOn with
  | nil =>
    by_cases hc : c = '\n'
    · simp [after, hc]
    · simp [after, hc]
  | append_singleton cs d ih =>
    rw [← List.cons_append, after_concat, ih, after_concat]
    have hline := one_le_line cs
    by_cases hd : d = '\n'
    · grind
    · grind

theorem bytesBefore?_lineFeed (pieces : List (List Char)) (line column : Nat) :
    bytesBefore? ([] :: pieces) line column =
      match line with
      | 0 => if column = 0 then some 0 else none
      | line + 1 => (bytesBefore? pieces line column).map (· + 1) := by
  cases line with
  | zero => simp [bytesBefore?]
  | succ line =>
    simp only [bytesBefore?, List.getElem?_cons_succ]
    cases pieces[line]? with
    | none => rfl
    | some piece =>
      simp only [Option.bind_some]
      split
      · simp [Nat.add_comm, Nat.add_left_comm]
      · rfl

theorem bytesBefore?_character (c : Char) (w : List Char) (ws : List (List Char))
    (line column : Nat) :
    bytesBefore? ((c :: w) :: ws) line column =
      match line, column with
      | 0, 0 => some 0
      | 0, column + 1 => (bytesBefore? (w :: ws) 0 column).map (· + c.utf8Size)
      | line + 1, column => (bytesBefore? (w :: ws) (line + 1) column).map (· + c.utf8Size) := by
  cases line with
  | zero =>
    cases column with
    | zero => simp [bytesBefore?]
    | succ column =>
      simp only [bytesBefore?, List.getElem?_cons_zero, Option.bind_some, List.length_cons,
        Nat.succ_le_succ_iff]
      split
      · simp
      · rfl
  | succ line =>
    simp only [bytesBefore?, List.getElem?_cons_succ]
    cases ws[line]? with
    | none => rfl
    | some piece =>
      simp only [Option.bind_some]
      split
      · simp [Nat.add_assoc, Nat.add_comm, Nat.add_left_comm]
      · rfl

theorem after_lineFeed_cons :
    after ('\n' :: cs) = ⟨line + 1, column⟩ ↔ after cs = ⟨line, column⟩ := by
  rw [after_cons, if_pos rfl]
  cases after cs
  simp

theorem after_lineFeed_cons_ne (cs : List Char) (column : Nat) :
    after ('\n' :: cs) ≠ ⟨1, column⟩ := by
  have hline := one_le_line cs
  rw [after_cons, if_pos rfl]
  grind

theorem after_character_cons (hc : c ≠ '\n') :
    after (c :: cs) = ⟨1, column + 1⟩ ↔ after cs = ⟨1, column⟩ := by
  rw [after_cons, if_neg hc]
  cases after cs
  grind

theorem after_character_cons_ne (hc : c ≠ '\n') (cs : List Char) : after (c :: cs) ≠ ⟨1, 1⟩ := by
  have hcolumn := one_le_column cs
  rw [after_cons, if_neg hc]
  grind

theorem after_character_cons_of_lt (hc : c ≠ '\n') (hl : 1 < line) :
    after (c :: cs) = ⟨line, column⟩ ↔ after cs = ⟨line, column⟩ := by
  rw [after_cons, if_neg hc]
  grind

theorem exists_prefix_cons {P : List Char → Prop} :
    (∃ front, front <+: c :: cs ∧ P front) ↔
      P [] ∨ ∃ front, front <+: cs ∧ P (c :: front) := by
  simp only [List.prefix_cons_iff]
  grind

theorem bytesBefore?_splitWhere :
    bytesBefore? (Text.splitWhere (· == '\n') cs) line column = some n ↔
      ∃ front, front <+: cs ∧ after front = ⟨line + 1, column + 1⟩ ∧
        String.utf8Len front = n := by
  induction cs generalizing line column n with
  | nil =>
    simp only [Text.splitWhere, bytesBefore?_lineFeed, List.prefix_nil, exists_eq_left]
    cases line with
    | zero => simp [after_nil]
    | succ line => simp [bytesBefore?, after_nil]
  | cons c cs ih =>
    rw [exists_prefix_cons, Text.splitWhere]
    by_cases hc : c = '\n'
    · subst hc
      have hsize : '\n'.utf8Size = 1 := by decide
      simp only [beq_self_eq_true, if_true, bytesBefore?_lineFeed]
      cases line with
      | zero => simp [after_nil, after_lineFeed_cons_ne]
      | succ line => simp [ih, after_nil, after_lineFeed_cons, hsize, and_assoc]
    · obtain ⟨w, ws, hw⟩ := List.exists_cons_of_ne_nil (Text.splitWhere_ne_nil (· == '\n') cs)
      rw [hw] at ih
      simp only [beq_iff_eq, hc, if_false, hw, bytesBefore?_character]
      cases line with
      | zero =>
        cases column with
        | zero => simp [after_nil, after_character_cons_ne hc]
        | succ column => simp [ih, after_nil, after_character_cons hc, and_assoc]
      | succ line => simp [ih, after_nil, after_character_cons_of_lt hc, and_assoc]

/-- The offset behind some characters has the position that is reached by reading them. -/
theorem ofOffset_utf8Len (h : front <+: source.toList) :
    ofOffset source (String.utf8Len front) = after front := by
  obtain ⟨back, hback⟩ := h
  obtain rfl : source = .ofList front ++ .ofList back := by
    rw [← String.ofList_append, hback, String.ofList_toList]
  have hle : String.utf8Len front ≤ (String.ofList front ++ .ofList back).utf8ByteSize := by
    rw [String.utf8ByteSize_append, String.utf8ByteSize_ofList]
    exact Nat.le_add_right _ _
  have hcut : (Span.mk 0 (String.utf8Len front)).cut? (.ofList front ++ .ofList back) =
      some (.ofList front) :=
    Span.cut?_eq_some_iff.mpr
      ⟨"", .ofList back, by simp, by simp, by simp [String.utf8ByteSize_ofList]⟩
  rw [ofOffset, textBefore, Nat.min_eq_left hle, hcut, Option.getD_some, String.toList_ofList]

theorem isValid_iff_exists_front : String.Pos.Raw.IsValid source ⟨a⟩ ↔
    ∃ front, front <+: source.toList ∧ String.utf8Len front = a := by
  rw [String.Pos.Raw.isValid_iff_exists_append]
  constructor
  · rintro ⟨u, v, rfl, hu⟩
    rw [String.Pos.Raw.ext_iff] at hu
    refine ⟨u.toList, ?_, ?_⟩
    · rw [String.toList_append]
      exact List.prefix_append _ _
    · rw [String.utf8Len_toList]
      exact hu.symm
  · rintro ⟨front, ⟨back, hback⟩, rfl⟩
    refine ⟨.ofList front, .ofList back, ?_, ?_⟩
    · rw [← String.ofList_append, hback, String.ofList_toList]
    · rw [String.rawEndPos_ofList]

theorem ofOffset_of_le (h : source.utf8ByteSize ≤ offset) :
    ofOffset source offset = ofOffset source source.utf8ByteSize := by
  rw [ofOffset, ofOffset, textBefore, textBefore, Nat.min_eq_right h, Nat.min_self]

theorem offset?_eq_some_iff {p : Position} : p.offset? source = some a ↔
    ∃ front, front <+: source.toList ∧ after front = p ∧ String.utf8Len front = a := by
  obtain ⟨line, column⟩ := p
  have hnone : ∀ front, (1 ≤ line → column < 1) → after front ≠ ⟨line, column⟩ := by
    rintro front h he
    have hl := one_le_line front
    have hc := one_le_column front
    rw [he] at hl hc
    exact Nat.not_lt_of_le hc (h hl)
  cases line with
  | zero => simp [offset?, hnone]
  | succ line =>
    cases column with
    | zero => simp [offset?, hnone]
    | succ column => exact bytesBefore?_splitWhere

/-- Further characters lead to a later position. -/
theorem after_lt_append (cs : List Char) {ds : List Char} (hd : ds ≠ []) :
    toLex ((after cs).line, (after cs).column) <
      toLex ((after (cs ++ ds)).line, (after (cs ++ ds)).column) := by
  induction ds using List.reverseRecOn with
  | nil => exact absurd rfl hd
  | append_singleton ds d ih =>
    have hstep : toLex ((after (cs ++ ds)).line, (after (cs ++ ds)).column) <
        toLex ((after (cs ++ ds ++ [d])).line, (after (cs ++ ds ++ [d])).column) := by
      rw [after_concat, Prod.Lex.toLex_lt_toLex]
      split
      · exact .inl (Nat.lt_succ_self _)
      · exact .inr ⟨rfl, Nat.lt_succ_self _⟩
    rw [← List.append_assoc]
    by_cases hds : ds = []
    · subst hds
      simpa using hstep
    · exact (ih hds).trans hstep

theorem ofOffset_lt (ha : String.Pos.Raw.IsValid source ⟨a⟩)
    (hb : String.Pos.Raw.IsValid source ⟨b⟩) (h : a < b) :
    toLex ((ofOffset source a).line, (ofOffset source a).column) <
      toLex ((ofOffset source b).line, (ofOffset source b).column) := by
  obtain ⟨front, hf, rfl⟩ := isValid_iff_exists_front.mp ha
  obtain ⟨front', hf', rfl⟩ := isValid_iff_exists_front.mp hb
  rw [ofOffset_utf8Len hf, ofOffset_utf8Len hf']
  -- of two beginnings of the source the one with fewer bytes is a beginning of the other
  rcases List.prefix_or_prefix_of_prefix hf hf' with hp | hp
  · obtain ⟨ds, rfl⟩ := hp
    apply after_lt_append
    rintro rfl
    simp at h
  · have hle := String.utf8Len_le_of_prefix hp
    exact absurd hle (Nat.not_le_of_lt h)

/-- Later offsets have later positions, and a line and a column are the position of an offset
exactly if they lead to it. All offsets past the end have the position of the end. -/
theorem ofOffset_identifies (source : String) :
    (∀ a b, String.Pos.Raw.IsValid source ⟨a⟩ → String.Pos.Raw.IsValid source ⟨b⟩ → a < b →
      toLex ((ofOffset source a).line, (ofOffset source a).column) <
        toLex ((ofOffset source b).line, (ofOffset source b).column)) ∧
    (∀ a, 1 ≤ (ofOffset source a).line ∧ 1 ≤ (ofOffset source a).column) ∧
    (∀ a p, String.Pos.Raw.IsValid source ⟨a⟩ ∧ ofOffset source a = p ↔
      p.offset? source = some a) ∧
    ∀ a, source.utf8ByteSize ≤ a → ofOffset source a = ofOffset source source.utf8ByteSize := by
  refine ⟨fun a b => ofOffset_lt, fun a => ⟨one_le_line _, one_le_column _⟩, ?_,
    fun a => ofOffset_of_le⟩
  intro a p
  rw [offset?_eq_some_iff, isValid_iff_exists_front]
  constructor
  · rintro ⟨⟨front, hf, rfl⟩, h⟩
    rw [ofOffset_utf8Len hf] at h
    exact ⟨front, hf, h, rfl⟩
  · rintro ⟨front, hf, rfl, rfl⟩
    exact ⟨⟨front, hf, rfl⟩, ofOffset_utf8Len hf⟩

/-- On and behind a line feed that follows a letter of two bytes. -/
theorem ofOffset_identifies_lineFeed :
    String.Pos.Raw.IsValid "é\n" ⟨2⟩ ∧ String.Pos.Raw.IsValid "é\n" ⟨3⟩ ∧
      ofOffset "é\n" 2 = ⟨1, 2⟩ ∧ ofOffset "é\n" 3 = ⟨2, 1⟩ ∧
      toLex ((ofOffset "é\n" 2).line, (ofOffset "é\n" 2).column) <
        toLex ((ofOffset "é\n" 3).line, (ofOffset "é\n" 3).column) ∧
      ofOffset "é\n" 7 = ofOffset "é\n" 3 := by
  obtain ⟨hlt, _, hiff, hend⟩ := ofOffset_identifies "é\n"
  have h2 := (hiff 2 ⟨1, 2⟩).mpr (by decide)
  have h3 := (hiff 3 ⟨2, 1⟩).mpr (by decide)
  exact ⟨h2.1, h3.1, h2.2, h3.2, hlt 2 3 h2.1 h3.1 (by decide), hend 7 (by decide)⟩

end Scaffold.Position
