import Scaffold.Disk
import Scaffold.Proofs.Path.Steps

namespace Scaffold
set_option autoImplicit true

def Spot.place : Spot → Location
  | .present place _ => place
  | .absent place => place

def Spot.entry? : Spot → Option Entry
  | .present _ entry => some entry
  | .absent _ => none

namespace Disk

theorem get?_nil (d : Disk) : d.get? [] = some .directory :=
  rfl

theorem lookup_filter_ne {es : List (Location × Entry)} (h : m ≠ l) :
    (es.filter (·.1 != l)).lookup m = es.lookup m := by
  induction es with
  | nil => rfl
  | cons x es ih =>
    obtain ⟨k, e⟩ := x
    by_cases hk : k = l
    · subst hk
      rw [List.filter_cons_of_neg (by simp), ih, List.lookup_cons, beq_false_of_ne h]
    · rw [List.filter_cons_of_pos (by simpa using hk), List.lookup_cons, List.lookup_cons, ih]

theorem get?_put {d : Disk} (h : l ≠ []) :
    (d.put l e).get? m = if m = l then some e else d.get? m := by
  by_cases hm : m = []
  · subst hm
    rw [if_neg h.symm]
    rfl
  · have hempty : m.isEmpty = false := by simpa using hm
    rw [get?, get?, hempty, put, List.lookup_cons]
    by_cases hl : m = l
    · subst hl
      simp
    · rw [if_neg hl, beq_false_of_ne hl]
      exact lookup_filter_ne hl

theorem workingDirectory_put (d : Disk) (l : Location) (e : Entry) :
    (d.put l e).workingDirectory = d.workingDirectory :=
  rfl

/-- A file system without links, in which everything stands in a directory. -/
structure Plain (d : Disk) : Prop where
  rooted : ∀ {l e}, d.get? l = some e → d.get? l.dropLast = some .directory
  linkless : ∀ l target, d.get? l ≠ some (.link target)
  working : d.get? d.workingDirectory = some .directory

namespace Plain

variable {d : Disk}

theorem of_entries (hrooted : ∀ x ∈ d.entries, d.get? x.1.dropLast = some .directory)
    (hlinkless : ∀ x ∈ d.entries, ∀ target, x.2 ≠ .link target)
    (hworking : d.get? d.workingDirectory = some .directory) : d.Plain := by
  have hmem : ∀ l e, d.get? l = some e → l = [] ∧ e = .directory ∨ (l, e) ∈ d.entries := by
    intro l e h
    by_cases hl : l = []
    · subst hl
      cases h
      exact .inl ⟨rfl, rfl⟩
    · rw [get?, if_neg (by simpa using hl)] at h
      obtain ⟨_, _, hsplit, _⟩ := List.lookup_eq_some_iff.mp h
      exact .inr (by simp [hsplit])
  refine ⟨?_, ?_, hworking⟩
  · intro l e h
    rcases hmem l e h with ⟨rfl, _⟩ | hx
    · rfl
    · exact hrooted _ hx
  · intro l target h
    rcases hmem l _ h with ⟨_, he⟩ | hx
    · cases he
    · exact hlinkless _ hx target rfl

theorem directory_of_append (hd : d.Plain) (h : d.get? (l ++ ns) = some e) (hne : ns ≠ []) :
    d.get? l = some .directory := by
  induction ns using List.reverseRecOn generalizing e with
  | nil => exact absurd rfl hne
  | append_singleton ns n ih =>
    have hparent := hd.rooted h
    rw [← List.append_assoc, List.dropLast_concat] at hparent
    by_cases hns : ns = []
    · rwa [hns, List.append_nil] at hparent
    · exact ih hparent hns

theorem none_of_append (hd : d.Plain) (h : d.get? l = none) (ns : List String) :
    d.get? (l ++ ns) = none := by
  by_cases hns : ns = []
  · rwa [hns, List.append_nil]
  · cases hg : d.get? (l ++ ns) with
    | none => rfl
    | some e => cases h.symm.trans (hd.directory_of_append hg hns)

theorem cases_get? (hd : d.Plain) (l : Location) :
    d.get? l = none ∨ d.get? l = some .directory ∨ ∃ content, d.get? l = some (.file content) := by
  cases hg : d.get? l with
  | none => exact .inl rfl
  | some e =>
    cases e with
    | file content => exact .inr (.inr ⟨content, rfl⟩)
    | directory => exact .inr (.inl rfl)
    | link target => exact absurd hg (hd.linkless l target)

theorem put (hd : d.Plain) (hparent : d.get? l.dropLast = some .directory)
    (hl : d.get? l ≠ some .directory) (he : ∀ target, e ≠ .link target) :
    (d.put l e).Plain := by
  have hne : l ≠ [] := by
    rintro rfl
    exact hl rfl
  refine ⟨?_, ?_, ?_⟩
  · intro m e' hm
    rw [get?_put hne] at hm ⊢
    have hold : d.get? m.dropLast = some .directory := by
      split at hm
      · rename_i hml
        rwa [hml]
      · exact hd.rooted hm
    rw [if_neg, hold]
    intro hml
    rw [hml] at hold
    exact hl hold
  · intro m target hm
    rw [get?_put hne] at hm
    split at hm
    · exact he target (Option.some.inj hm)
    · exact hd.linkless m target hm
  · rw [workingDirectory_put, get?_put hne, if_neg, hd.working]
    intro hw
    exact hl (hw ▸ hd.working)

end Plain

def linkStart (target : String) (l : Location) : Location :=
  if (Path.mk target).isAbsolute then [] else l

def linkNames (target : String) (ns : List String) : List String :=
  (Path.mk target).pieces.filter (!·.isEmpty) ++ ns

def enterWith (d : Disk) (follow : Bool) (onLink : Location → List String → Except OsError Spot)
    (l : Location) (n : String) (ns : List String) : Except OsError Spot :=
  match d.get? (l ++ [n]) with
  | none => if ns = [] then .ok (.absent (l ++ [n])) else .error .notFound
  | some (.link target) =>
    if ns = [] ∧ follow = false then .ok (.present (l ++ [n]) (.link target))
    else onLink (linkStart target l) (linkNames target ns)
  | some _ => d.walkWith follow onLink (l ++ [n]) ns

section Walk

variable {d : Disk}

theorem walkWith_cons (h : d.get? l = some .directory) :
    d.walkWith follow onLink l (n :: ns) =
      if n = "." then d.walkWith follow onLink l ns
      else if n = ".." then d.walkWith follow onLink l.dropLast ns
      else if longestName < n.utf8ByteSize then .error .nameTooLong
      else d.enterWith follow onLink l n ns := by
  simp only [walkWith, h, beq_iff_eq, List.isEmpty_iff, Bool.and_eq_true, Bool.not_eq_true']
  rfl

theorem directory_of_walkWith (h : d.walkWith follow onLink l (n :: ns) = .ok s) :
    d.get? l = some .directory := by
  rw [walkWith] at h
  split at h
  · assumption
  · cases h

theorem get?_of_enterWith (hlink : ∀ l ns s, onLink l ns = .ok s → d.get? s.place = s.entry?)
    (hwalk : ∀ {l}, d.walkWith follow onLink l ns = .ok s → d.get? s.place = s.entry?)
    (h : d.enterWith follow onLink l n ns = .ok s) : d.get? s.place = s.entry? := by
  unfold enterWith at h
  split at h
  · rename_i hget
    split at h <;> cases h
    exact hget
  · rename_i hget
    split at h
    · cases h
      exact hget
    · exact hlink _ _ _ h
  · exact hwalk h

theorem get?_of_walkWith (hlink : ∀ l ns s, onLink l ns = .ok s → d.get? s.place = s.entry?)
    (h : d.walkWith follow onLink l ns = .ok s) : d.get? s.place = s.entry? := by
  induction ns generalizing l with
  | nil =>
    rw [walkWith] at h
    split at h <;> rename_i hget <;> cases h <;> exact hget
  | cons n ns ih =>
    rw [walkWith_cons (directory_of_walkWith h)] at h
    split at h
    · exact ih h
    · split at h
      · exact ih h
      · split at h
        · cases h
        · exact get?_of_enterWith hlink ih h

theorem get?_of_walk (h : d.walk follow links l ns = .ok s) : d.get? s.place = s.entry? := by
  induction links generalizing follow l ns s with
  | zero =>
    refine get?_of_walkWith ?_ h
    rintro _ _ _ ⟨⟩
  | succ links ih => exact get?_of_walkWith (fun _ _ _ h => ih h) h

theorem get?_of_find (h : d.find p follow = .ok s) : d.get? s.place = s.entry? := by
  unfold find at h
  split at h
  · cases h
  · split at h
    · cases h
    · exact get?_of_walk h

theorem get?_of_find_present (h : d.find p follow = .ok (.present l e)) : d.get? l = some e :=
  get?_of_find h

end Walk

/-- Where names lead from a place if no link is on the way. -/
def reach (d : Disk) (l : Location) (ns : List String) : Except OsError Spot :=
  d.walk true 0 l ns

section Reach

variable {d : Disk}

theorem walkWith_eq_reach (hd : d.Plain) (follow : Bool)
    (onLink : Location → List String → Except OsError Spot) (l : Location) (ns : List String) :
    d.walkWith follow onLink l ns = d.reach l ns := by
  induction ns generalizing l with
  | nil => rfl
  | cons n ns ih =>
    simp only [reach, walk, walkWith] at ih ⊢
    simp only [ih]
    split
    · split
      · rfl
      · split
        · rfl
        · split
          · rfl
          · split
            · rfl
            · rename_i h
              exact absurd h (hd.linkless _ _)
            · rfl
    · rfl

theorem walk_eq_reach (hd : d.Plain) (follow : Bool) (links : Nat) (l : Location)
    (ns : List String) : d.walk follow links l ns = d.reach l ns := by
  cases links with
  | zero => exact walkWith_eq_reach hd follow _ l ns
  | succ links => exact walkWith_eq_reach hd follow _ l ns

theorem reach_nil (h : d.get? l = some e) : d.reach l [] = .ok (.present l e) := by
  simp only [reach, walk, walkWith, h]

theorem reach_blocked (h : d.get? l ≠ some .directory) (n : String) (ns : List String) :
    d.reach l (n :: ns) = .error .notDirectory := by
  simp only [reach, walk, walkWith]

theorem reach_cons (hd : d.Plain) (h : d.get? l = some .directory) (n : String)
    (ns : List String) :
    d.reach l (n :: ns) =
      if n = "." then d.reach l ns
      else if n = ".." then d.reach l.dropLast ns
      else if longestName < n.utf8ByteSize then .error .nameTooLong
      else if d.get? (l ++ [n]) = none then
        if ns = [] then .ok (.absent (l ++ [n])) else .error .notFound
      else d.reach (l ++ [n]) ns := by
  simp only [reach, walk, walkWith, h, beq_iff_eq, List.isEmpty_iff]
  split
  · rfl
  · split
    · rfl
    · split
      · rfl
      · rcases hd.cases_get? (l ++ [n]) with hg | hg | ⟨content, hg⟩ <;> simp [hg]

theorem reach_name (hd : d.Plain) (h : d.get? l = some .directory) (hn : ProperName n)
    (ns : List String) :
    d.reach l (n :: ns) =
      if longestName < n.utf8ByteSize then .error .nameTooLong
      else if d.get? (l ++ [n]) = none then
        if ns = [] then .ok (.absent (l ++ [n])) else .error .notFound
      else d.reach (l ++ [n]) ns := by
  rw [reach_cons hd h, if_neg hn.ne_dot, if_neg hn.ne_dots]

theorem filter_dots_eq_nil_iff (h : ns.getLast? ≠ some ".") :
    ns.filter (· != ".") = [] ↔ ns = [] := by
  constructor
  · intro hns
    rcases List.eq_nil_or_concat ns with rfl | ⟨ns, n, rfl⟩
    · rfl
    · rw [List.concat_eq_append] at h hns
      have hn : n = "." := by simpa using List.filter_eq_nil_iff.mp hns n (by simp)
      rw [List.getLast?_concat, hn] at h
      exact absurd rfl h
  · rintro rfl
    rfl

/-- Dots between names do not matter to a walk, only a dot at the end does. -/
theorem reach_filter (hd : d.Plain) (h : ns.getLast? ≠ some ".") (l : Location) :
    d.reach l ns = d.reach l (ns.filter (· != ".")) := by
  induction ns generalizing l with
  | nil => rfl
  | cons n ns ih =>
    have hempty := filter_dots_eq_nil_iff h
    have hns : ns.getLast? ≠ some "." := by
      intro hlast
      rw [List.getLast?_cons, hlast] at h
      exact h rfl
    by_cases hn : n = "."
    · subst hn
      rw [List.filter_cons_of_neg (by simp)] at hempty ⊢
      by_cases hl : d.get? l = some .directory
      · rw [reach_cons hd hl, if_pos rfl]
        exact ih hns l
      · obtain ⟨m, ms, hms⟩ := List.exists_cons_of_ne_nil (hempty.not.mpr (List.cons_ne_nil _ _))
        rw [hms, reach_blocked hl, reach_blocked hl]
    · rw [List.filter_cons_of_pos (by simpa using hn)]
      by_cases hl : d.get? l = some .directory
      · rw [reach_cons hd hl, reach_cons hd hl]
        simp only [filter_dots_eq_nil_iff hns, ih hns]
      · rw [reach_blocked hl, reach_blocked hl]

end Reach

inductive Follows (d : Disk) : Location → List String → Location → Prop where
  | here : d.get? l = some .directory → Follows d l [] l
  | dot : d.get? l = some .directory → Follows d l ns q → Follows d l ("." :: ns) q
  | up : d.get? l = some .directory → Follows d l.dropLast ns q → Follows d l (".." :: ns) q
  | down : d.get? l = some .directory → n ≠ "." → n ≠ ".." → n.utf8ByteSize ≤ longestName →
      Follows d (l ++ [n]) ns q → Follows d l (n :: ns) q

namespace Follows

variable {d : Disk}

theorem source (h : Follows d l ns q) : d.get? l = some .directory := by
  cases h with
  | here hl => exact hl
  | dot hl _ => exact hl
  | up hl _ => exact hl
  | down hl _ _ _ _ => exact hl

theorem target (h : Follows d l ns q) : d.get? q = some .directory := by
  induction h with
  | here hl => exact hl
  | dot _ _ ih => exact ih
  | up _ _ ih => exact ih
  | down _ _ _ _ _ ih => exact ih

theorem mono (h : Follows d l ns q)
    (hdirs : ∀ m, d.get? m = some .directory → d'.get? m = some .directory) :
    Follows d' l ns q := by
  induction h with
  | here hl => exact .here (hdirs _ hl)
  | dot hl _ ih => exact .dot (hdirs _ hl) ih
  | up hl _ ih => exact .up (hdirs _ hl) ih
  | down hl hdot hdots hsize _ ih => exact .down (hdirs _ hl) hdot hdots hsize ih

theorem reach_append (hd : d.Plain) (h : Follows d l ns q) (ms : List String) :
    d.reach l (ns ++ ms) = d.reach q ms := by
  induction h with
  | here _ => rfl
  | dot hl _ ih => rw [List.cons_append, reach_cons hd hl, if_pos rfl, ih]
  | up hl _ ih => rw [List.cons_append, reach_cons hd hl, if_neg (by decide), if_pos rfl, ih]
  | down hl hdot hdots hsize hrest ih =>
    rw [List.cons_append, reach_cons hd hl, if_neg hdot, if_neg hdots,
      if_neg (Nat.not_lt.mpr hsize), if_neg (by simp [hrest.source]), ih]

theorem of_reach (hd : d.Plain) (h : d.reach l ns = .ok (.present q .directory)) :
    Follows d l ns q := by
  induction ns generalizing l with
  | nil =>
    cases hg : d.get? l with
    | none => simp [reach, walk, walkWith, hg] at h
    | some e =>
      rw [reach_nil hg] at h
      cases h
      exact .here hg
  | cons n ns ih =>
    by_cases hl : d.get? l = some .directory
    · rw [reach_cons hd hl] at h
      split_ifs at h with hdot hdots hsize
      · exact hdot ▸ .dot hl (ih h)
      · exact hdots ▸ .up hl (ih h)
      · cases h
      · exact .down hl hdot hdots (Nat.not_lt.mp hsize) (ih h)
    · rw [reach_blocked hl] at h
      cases h

theorem filter (h : Follows d l ns q) : Follows d l (ns.filter (· != ".")) q := by
  induction h with
  | here hl => exact .here hl
  | dot _ _ ih => exact ih
  | up hl _ ih => exact .up hl ih
  | down hl hdot hdots hsize _ ih =>
    rw [List.filter_cons_of_pos (by simpa using hdot)]
    exact .down hl hdot hdots hsize ih

theorem of_filter (h : Follows d l (ns.filter (· != ".")) q) : Follows d l ns q := by
  induction ns generalizing l with
  | nil => exact h
  | cons n ns ih =>
    by_cases hn : n = "."
    · subst hn
      exact .dot h.source (ih h)
    · rw [List.filter_cons_of_pos (by simpa using hn)] at h
      cases h with
      | dot _ _ => exact absurd rfl hn
      | up hl hrest => exact .up hl (ih hrest)
      | down hl hdot hdots hsize hrest => exact .down hl hdot hdots hsize (ih hrest)

end Follows

def start (d : Disk) (p : Path) : Location :=
  if p.isAbsolute then [] else d.workingDirectory

theorem Plain.get?_start_ne_none (hd : Plain d) (p : Path) : d.get? (d.start p) ≠ none := by
  rw [start]
  split
  · simp [get?_nil]
  · simp [hd.working]

theorem find_eq_reach {d : Disk} (hd : d.Plain) (hp : p.text ≠ "") (follow : Bool) :
    d.find p follow =
      if longestPath < p.text.utf8ByteSize then .error .nameTooLong
      else d.reach (d.start p) p.trail := by
  rw [find, if_neg (by simpa using hp)]
  simp only [walk_eq_reach hd]
  rfl

section Below

variable {d : Disk}

theorem get?_of_reach_absent (hd : d.Plain) (hb : d.get? b ≠ none)
    (h : d.reach b ns = .ok (.absent l)) :
    d.get? l = none ∧ d.get? l.dropLast = some .directory := by
  induction ns generalizing b with
  | nil =>
    obtain ⟨e, he⟩ := Option.ne_none_iff_exists'.mp hb
    rw [reach_nil he] at h
    cases h
  | cons n ns ih =>
    by_cases hdir : d.get? b = some .directory
    · rw [reach_cons hd hdir] at h
      split_ifs at h with _ _ _ hfree
      · exact ih hb h
      · exact ih (by simp [hd.rooted hdir]) h
      · cases h
        exact ⟨hfree, by rwa [List.dropLast_concat]⟩
      · exact ih hfree h
    · rw [reach_blocked hdir] at h
      cases h

/-- A walk along names that ends somewhere ends at the place of those names. -/
theorem place_of_reach (hd : d.Plain) (hns : ∀ n ∈ ns.filter (· != "."), ProperName n)
    (h : d.reach b ns = .ok s) :
    s.place = b ++ ns.filter (· != ".") ∧
      ∀ n ∈ ns.filter (· != "."), n.utf8ByteSize ≤ longestName := by
  induction ns generalizing b with
  | nil =>
    refine ⟨?_, nofun⟩
    cases hg : d.get? b <;>
    · simp only [reach, walk, walkWith, hg, Except.ok.injEq] at h
      rw [← h]
      exact (List.append_nil _).symm
  | cons n ns ih =>
    by_cases hb : d.get? b = some .directory
    · by_cases hn : n = "."
      · rw [reach_cons hd hb, if_pos hn] at h
        subst hn
        exact ih hns h
      · rw [List.filter_cons_of_pos (by simpa using hn)] at hns ⊢
        rw [reach_name hd hb (hns n List.mem_cons_self)] at h
        split_ifs at h with hsize hfree hend
        · cases h
          subst hend
          exact ⟨rfl, by simpa using hsize⟩
        · obtain ⟨hs, hshort⟩ := ih (fun m hm => hns m (List.mem_cons_of_mem _ hm)) h
          refine ⟨by rw [hs, List.append_assoc]; rfl, ?_⟩
          exact List.forall_mem_cons.mpr ⟨Nat.not_lt.mp hsize, hshort⟩
    · rw [reach_blocked hb] at h
      cases h

/-- A walk down depends only on what stands on its way. -/
theorem reach_congr {d' : Disk} (hd : d.Plain) (hd' : d'.Plain)
    (hns : ∀ n ∈ ns.filter (· != "."), ProperName n)
    (h : ∀ ms, ms <+: ns.filter (· != ".") → d'.get? (b ++ ms) = d.get? (b ++ ms)) :
    d'.reach b ns = d.reach b ns := by
  have hb : d'.get? b = d.get? b := by simpa using h [] List.nil_prefix
  induction ns generalizing b with
  | nil => simp only [reach, walk, walkWith, hb]
  | cons n ns ih =>
    by_cases hdir : d.get? b = some .directory
    · by_cases hn : n = "."
      · rw [reach_cons hd hdir, reach_cons hd' (hb.trans hdir), if_pos hn, if_pos hn]
        subst hn
        exact ih hns h hb
      · rw [List.filter_cons_of_pos (by simpa using hn)] at hns h
        have hnext : ∀ ms, ms <+: ns.filter (· != ".") →
            d'.get? (b ++ [n] ++ ms) = d.get? (b ++ [n] ++ ms) := by
          intro ms hms
          rw [List.append_assoc]
          exact h _ (List.prefix_cons_inj n |>.mpr hms)
        have hfirst : d'.get? (b ++ [n]) = d.get? (b ++ [n]) := by
          simpa using hnext [] List.nil_prefix
        have hproper := hns n List.mem_cons_self
        rw [reach_name hd hdir hproper, reach_name hd' (hb.trans hdir) hproper, hfirst,
          ih (fun m hm => hns m (List.mem_cons_of_mem _ hm)) hnext hfirst]
    · rw [reach_blocked hdir, reach_blocked (hb ▸ hdir)]

theorem text_ne_empty_of_find (h : d.find p follow = .ok s) : p.text ≠ "" := by
  intro htext
  rw [find, if_pos (by simpa using htext)] at h
  cases h

theorem get?_of_find_absent (hd : d.Plain) (h : d.find p follow = .ok (.absent l)) :
    d.get? l = none ∧ d.get? l.dropLast = some .directory := by
  rw [find_eq_reach hd (text_ne_empty_of_find h)] at h
  split at h
  · cases h
  · exact get?_of_reach_absent hd (hd.get?_start_ne_none p) h

end Below

theorem exists_of_isDirectory {d : Disk} (h : d.isDirectory p = true) :
    ∃ l, d.find p true = .ok (.present l .directory) := by
  rw [isDirectory, beq_iff_eq, lookUp?] at h
  split at h
  · rename_i l e hfind
    cases h
    exact ⟨l, hfind⟩
  · cases h

end Disk

end Scaffold
