import Scaffold.CommandLine
import Scaffold.Proofs.Config.Settings

namespace Scaffold
set_option autoImplicit true

def Flag.option : Flag → String
  | project => "--project"
  | config => "--config"
  | root => "--root"
  | exclude => "--exclude"
  | base => "--base"
  | namesp => "--namespace"
  | testDirectory => "--test-dir"
  | methodFormat => "--method-format"
  | template => "--template"
  | dryRun => "--dry-run"
  | parallel => "--parallel"
  | format => "--format"
  | quiet => "--quiet"
  | verbose => "--verbose"
  | help => "--help"
  | version => "--version"

namespace CommandLine

/-- The values that some arguments give to an option: what stands behind an equals sign, or the
argument that follows. -/
def valuesOf (option : String) : List String → List String
  | [] => []
  | argument :: rest =>
    if argument = option then rest.head?.toList ++ valuesOf option rest
    else match (option ++ "=").toList.isPrefixOf? argument.toList with
      | some value => .ofList value :: valuesOf option rest
      | none => valuesOf option rest

/-- Some arguments give a value to a setting. -/
def Gives (arguments : List String) : Setting α → α → Prop
  | .base, value => (valuesOf "--base" arguments).getLast? = some value
  | .roots, values => valuesOf "--root" arguments = values ∧ values ≠ []
  | .exclude, values => valuesOf "--exclude" arguments = values ∧ values ≠ []
  | .extension, _ => False
  | .namesp, value => (valuesOf "--namespace" arguments).getLast? = some value
  | .directory, value => (valuesOf "--test-dir" arguments).getLast? = some value
  | .template, value => (valuesOf "--template" arguments).getLast? = some value
  | .methodFormat, .snake => (valuesOf "--method-format" arguments).getLast? = some "snake"
  | .methodFormat, .camel => (valuesOf "--method-format" arguments).getLast? = some "camel"
  | .dryRun, value => "--dry-run" ∈ arguments ∧ value = true
  | .parallel, value => "--parallel" ∈ arguments ∧ value = true

end CommandLine

def Setting.flag? : Setting α → Option Flag
  | base => some .base
  | roots => some .root
  | exclude => some .exclude
  | extension => none
  | namesp => some .namesp
  | directory => some .testDirectory
  | template => some .template
  | methodFormat => some .methodFormat
  | dryRun => some .dryRun
  | parallel => some .parallel

def Setting.take : Setting α → Option α → String → Option α
  | base, _, value => some value
  | roots, given, value => some (given.getD [] ++ [value])
  | exclude, given, value => some (given.getD [] ++ [value])
  | extension, given, _ => given
  | namesp, _, value => some value
  | directory, _, value => some value
  | template, _, value => some value
  | methodFormat, _, value => MethodFormat.ofWord? value
  | dryRun, given, _ => given
  | parallel, given, _ => given

theorem Flag.ofLong?_eq_some_iff {name : String} {flag : Flag} :
    ofLong? name = some flag ↔ flag.option.toList = '-' :: '-' :: name.toList := by
  constructor
  · intro h
    unfold ofLong? at h
    split at h <;> cases h <;> rfl
  · intro h
    have hname : name = .ofList (flag.option.toList.drop 2) := by
      rw [h, List.drop_succ_cons, List.drop_succ_cons, List.drop_zero, String.ofList_toList]
    rw [hname]
    cases flag <;> decide +kernel

namespace CommandLine

variable {s : Setting α} {flag g : Flag} {a a' : Arguments} {st st' : State} {argument : String}

section Values

theorem notMem_option (flag : Flag) : '=' ∉ flag.option.toList := by
  cases flag <;> decide

theorem option_inj (h : g.option.toList = flag.option.toList) : g = flag := by
  have hname : flag.option.toList =
      '-' :: '-' :: (String.ofList (flag.option.toList.drop 2)).toList := by
    rw [String.toList_ofList]
    cases flag <;> rfl
  exact Option.some.inj ((Flag.ofLong?_eq_some_iff.mpr (h.trans hname)).symm.trans
    (Flag.ofLong?_eq_some_iff.mpr hname))

theorem eq_of_append_eq {x y r z : List Char} (hx : '=' ∉ x) (hy : '=' ∉ y)
    (h : x ++ '=' :: r = y ++ '=' :: z) : x = y ∧ r = z := by
  induction x generalizing y with
  | nil =>
    cases y with
    | nil => exact ⟨rfl, (List.cons.inj h).2⟩
    | cons c y => exact absurd (List.mem_cons.mpr (.inl (List.cons.inj h).1)) hy
  | cons c x ih =>
    cases y with
    | nil => exact absurd (List.mem_cons.mpr (.inl (List.cons.inj h).1.symm)) hx
    | cons d y =>
      obtain ⟨rfl, htail⟩ := List.cons.inj h
      obtain ⟨rfl, rfl⟩ := ih (fun hm => hx (List.mem_cons_of_mem _ hm))
        (fun hm => hy (List.mem_cons_of_mem _ hm)) htail
      exact ⟨rfl, rfl⟩

theorem valuesOf_cons (flag : Flag) (argument : String) (rest : List String) :
    valuesOf flag.option (argument :: rest) =
      (if argument.toList = flag.option.toList then rest.head?.toList
        else ((flag.option.toList ++ ['=']).isPrefixOf? argument.toList).toList.map .ofList) ++
      valuesOf flag.option rest := by
  have heq : argument = flag.option ↔ argument.toList = flag.option.toList := String.toList_inj.symm
  rw [valuesOf, if_congr heq rfl rfl]
  split
  · rfl
  · have htext : (flag.option ++ "=").toList = flag.option.toList ++ ['='] := String.toList_append
    rw [htext]
    cases (flag.option.toList ++ ['=']).isPrefixOf? argument.toList <;> rfl

theorem isPrefixOf?_eq_none {x l : List Char} (h : ∀ value, l ≠ x ++ '=' :: value) :
    (x ++ ['=']).isPrefixOf? l = none := by
  cases hvalue : (x ++ ['=']).isPrefixOf? l with
  | none => rfl
  | some value =>
    rw [List.isPrefixOf?_eq_some_iff_append_eq, List.append_assoc] at hvalue
    exact absurd hvalue.symm (h value)

theorem exists_option (flag : Flag) : ∃ name, flag.option.toList = '-' :: '-' :: name := by
  cases flag <;> exact ⟨_, rfl⟩

theorem valuesOf_of_not_long (h : ∀ cs, argument.toList ≠ '-' :: '-' :: cs) (rest : List String) :
    valuesOf flag.option (argument :: rest) = valuesOf flag.option rest := by
  obtain ⟨name, hname⟩ := exists_option flag
  rw [valuesOf_cons, hname, if_neg (h _), isPrefixOf?_eq_none fun value => h _]
  rfl

theorem valuesOf_bare (h : argument.toList = g.option.toList) (rest : List String) :
    valuesOf flag.option (argument :: rest) =
      (if g = flag then rest.head?.toList else []) ++ valuesOf flag.option rest := by
  rw [valuesOf_cons]
  by_cases hg : g = flag
  · rw [if_pos hg, if_pos (by rw [h, hg])]
  · have hnone : (flag.option.toList ++ ['=']).isPrefixOf? argument.toList = none := by
      apply isPrefixOf?_eq_none
      intro value hvalue
      apply notMem_option g
      rw [← h, hvalue]
      exact List.mem_append_right _ List.mem_cons_self
    rw [if_neg hg, if_neg fun hflag => hg (option_inj (h.symm.trans hflag)), hnone]
    rfl

theorem valuesOf_attached (h : argument.toList = g.option.toList ++ '=' :: value)
    (rest : List String) :
    valuesOf flag.option (argument :: rest) =
      (if g = flag then [.ofList value] else []) ++ valuesOf flag.option rest := by
  have hbare : argument.toList ≠ flag.option.toList := by
    intro hflag
    apply notMem_option flag
    rw [← hflag, h]
    exact List.mem_append_right _ List.mem_cons_self
  rw [valuesOf_cons, if_neg hbare]
  by_cases hg : g = flag
  · have hvalue : (flag.option.toList ++ ['=']).isPrefixOf? argument.toList = some value := by
      rw [List.isPrefixOf?_eq_some_iff_append_eq, h, hg, List.append_assoc]
      rfl
    rw [if_pos hg, hvalue]
    rfl
  · have hnone : (flag.option.toList ++ ['=']).isPrefixOf? argument.toList = none := by
      apply isPrefixOf?_eq_none
      intro value' hvalue
      rw [h] at hvalue
      exact hg (option_inj (eq_of_append_eq (notMem_option g) (notMem_option flag) hvalue).1)
    rw [if_neg hg, hnone]
    rfl

/-- An argument with two dashes at its front is an option, or one with its value. -/
theorem long_cases (h : argument.toList = '-' :: '-' :: cs)
    (hname : Flag.ofLong? (.ofList (cs.takeWhile (· != '='))) = some g) :
    (cs.dropWhile (· != '=') = [] ∧ argument.toList = g.option.toList) ∨
      ∃ value, cs.dropWhile (· != '=') = '=' :: value ∧
        argument.toList = g.option.toList ++ '=' :: value := by
  rw [Flag.ofLong?_eq_some_iff, String.toList_ofList] at hname
  have hsplit := List.takeWhile_append_dropWhile (p := (· != '=')) (l := cs)
  have hhead := List.head?_dropWhile_not (· != '=') cs
  cases hrest : cs.dropWhile (· != '=') with
  | nil =>
    rw [hrest, List.append_nil] at hsplit
    exact .inl ⟨rfl, by rw [h, hname, hsplit]⟩
  | cons c value =>
    rw [hrest] at hsplit hhead
    obtain rfl : c = '=' := by simpa using hhead
    refine .inr ⟨value, rfl, ?_⟩
    calc argument.toList = '-' :: '-' :: (cs.takeWhile (· != '=') ++ '=' :: value) := by
          rw [h, hsplit]
      _ = g.option.toList ++ '=' :: value := by
          rw [hname]
          rfl

end Values

section States

theorem settle_cases (h : st.settle = .ok st') : (st.pending = none ∧ st' = st) ∨
    ∃ g value, st.pending = some ⟨g, some value⟩ ∧
      { st with pending := none }.give g value = .ok st' := by
  rw [State.settle] at h
  split at h
  · rename_i hpending
    exact .inl ⟨hpending, (Except.ok.inj h).symm⟩
  · cases h
  · rename_i g value hpending
    exact .inr ⟨g, value, hpending, h⟩

theorem claim_eq_ok (h : st.claim flag = .ok st') : st' = { st with seen := flag :: st.seen } := by
  rw [State.claim] at h
  split at h <;> cases h
  rfl

theorem give_eq_ok (h : st.give g value = .ok st') : ∃ a, st.arguments.setValue g value = .ok a ∧
    st' = { st with seen := g :: st.seen, arguments := a } := by
  obtain ⟨claimed, hclaimed, h⟩ := Except.exists_of_bind_eq_ok h
  obtain ⟨a, ha, ⟨⟩⟩ := Except.exists_of_bind_eq_ok h
  rw [claim_eq_ok hclaimed] at ha ⊢
  exact ⟨a, ha, rfl⟩

/-- Taking up an option settles the one before it and then waits for a value, has it, or needs
none. -/
theorem accept_cases (h : st.accept g attached = .ok st') :
    ∃ settled, st.settle = .ok settled ∧
      ((g.takesValue = true ∧ attached = none ∧
          st' = { settled with pending := some ⟨g, none⟩ }) ∨
        (∃ value, g.takesValue = true ∧ attached = some value ∧
          settled.give g value = .ok st') ∨
        (g.takesValue = false ∧ attached = none ∧
          ∃ a, settled.arguments.setSwitch g = .ok a ∧
            st' = { settled with seen := g :: settled.seen, arguments := a })) := by
  rw [State.accept] at h
  split at h
  · rename_i hvalue
    obtain ⟨settled, hsettled, h⟩ := Except.exists_of_bind_eq_ok h
    refine ⟨settled, hsettled, ?_⟩
    split at h
    · exact .inr (.inl ⟨_, hvalue, rfl, h⟩)
    · exact .inl ⟨hvalue, rfl, (Except.ok.inj h).symm⟩
  · rename_i hvalue
    split at h
    · cases h
    · rename_i hattached
      obtain ⟨settled, hsettled, h⟩ := Except.exists_of_bind_eq_ok h
      obtain ⟨claimed, hclaimed, h⟩ := Except.exists_of_bind_eq_ok h
      obtain ⟨a, ha, ⟨⟩⟩ := Except.exists_of_bind_eq_ok h
      rw [claim_eq_ok hclaimed] at ha ⊢
      exact ⟨settled, hsettled,
        .inr (.inr ⟨eq_false_of_ne_true hvalue, by simpa using hattached, a, ha, rfl⟩)⟩

/-- An argument is an option with two dashes, options with one dash, or a value. -/
theorem step_cases (h : st.step argument = .ok st') :
    (∃ cs, argument.toList = '-' :: '-' :: cs ∧ st.acceptLong cs = .ok st') ∨
      (∀ cs, argument.toList ≠ '-' :: '-' :: cs) ∧
        (st.acceptValue argument = .ok st' ∨ ∃ cs, cs ≠ [] ∧ st.acceptShort cs = .ok st') := by
  rw [State.step] at h
  split at h
  · rename_i cs hcs
    exact .inl ⟨cs, hcs, h⟩
  · rename_i hcs
    refine .inr ⟨?_, .inl h⟩
    rw [hcs]
    nofun
  · rename_i cs hlong hbare hcs
    refine .inr ⟨?_, .inr ⟨cs, hbare, h⟩⟩
    intro ds hds
    rw [hcs] at hds
    exact hlong ds (List.cons.inj hds).2
  · rename_i hlong _ _
    exact .inr ⟨fun cs hcs => hlong cs hcs, .inl h⟩

theorem read_cons_cases {arguments : List String}
    (h : read st (argument :: arguments) = .ok st') :
    argument = "--" ∧ arguments = [] ∧ st.settle = .ok st' ∨
      ∃ next, st.step argument = .ok next ∧ read next arguments = .ok st' := by
  unfold CommandLine.read at h
  split at h
  · rename_i hnil
    cases hnil
  · rename_i hcons
    cases hcons
    split at h
    · rename_i hrest
      exact .inl ⟨rfl, List.isEmpty_iff.mp hrest, h⟩
    · cases h
  · rename_i hcons
    cases hcons
    exact .inr (Except.exists_of_bind_eq_ok h)

end States

section Changes

theorem given_setValue (h : a.setValue g value = .ok a') (hs : s.flag? ≠ some g) :
    s.given a'.overrides = s.given a.overrides := by
  cases g with
  | project =>
    obtain ⟨_, _, ⟨⟩⟩ := Except.exists_of_bind_eq_ok h
    rfl
  | config =>
    obtain ⟨_, _, ⟨⟩⟩ := Except.exists_of_bind_eq_ok h
    rfl
  | format =>
    obtain ⟨_, _, ⟨⟩⟩ := Except.exists_of_bind_eq_ok h
    rfl
  | methodFormat =>
    obtain ⟨_, _, ⟨⟩⟩ := Except.exists_of_bind_eq_ok h
    cases s <;> first | rfl | exact absurd rfl hs
  | _ =>
    cases h
    cases s <;> first | rfl | exact absurd rfl hs

theorem given_setValue_self (h : a.setValue g value = .ok a') (hs : s.flag? = some g)
    (hv : g.takesValue = true) : s.given a'.overrides = s.take (s.given a.overrides) value := by
  cases s with
  | roots =>
    cases hs
    cases h
    cases hroots : a.roots <;> simp [Setting.given, Setting.take, Arguments.overrides, hroots]
  | exclude =>
    cases hs
    cases h
    cases hexclude : a.exclude <;>
      simp [Setting.given, Setting.take, Arguments.overrides, hexclude]
  | extension => cases hs
  | methodFormat =>
    cases hs
    obtain ⟨format, hformat, ⟨⟩⟩ := Except.exists_of_bind_eq_ok h
    unfold Arguments.choice at hformat
    split at hformat <;> cases hformat
    rename_i hword
    exact hword.symm
  | dryRun =>
    cases hs
    cases hv
  | parallel =>
    cases hs
    cases hv
  | _ =>
    cases hs
    cases h
    rfl

theorem given_setSwitch (h : a.setSwitch g = .ok a') (hs : s.flag? ≠ some g) :
    s.given a'.overrides = s.given a.overrides := by
  cases g <;> cases h <;> cases s <;> first | rfl | exact absurd rfl hs

end Changes

/-- The values of an option that are still to be taken up before some arguments. -/
def State.awaited (st : State) (flag : Flag) (arguments : List String) : List String :=
  match st.pending with
  | some ⟨g, some value⟩ => if g = flag then [value] else []
  | some ⟨g, none⟩ => if g = flag then arguments.head?.toList else []
  | none => []

/-- What a setting is given once all arguments are read, those behind the options so far. -/
def outlook (s : Setting α) (flag : Flag) (st : State) (arguments : List String) : Option α :=
  (st.awaited flag arguments ++ valuesOf flag.option arguments).foldl s.take
    (s.given st.arguments.overrides)

section Outlook

variable (hs : s.flag? = some flag) (hv : flag.takesValue = true)
include hs hv

theorem given_give (h : st.give g value = .ok st') :
    s.given st'.arguments.overrides =
      (if g = flag then [value] else []).foldl s.take (s.given st.arguments.overrides) := by
  obtain ⟨a, ha, rfl⟩ := give_eq_ok h
  by_cases hg : g = flag
  · subst hg
    rw [if_pos rfl]
    exact given_setValue_self ha hs hv
  · rw [if_neg hg]
    exact given_setValue ha fun hflag => hg (Option.some.inj (hflag.symm.trans hs))

theorem given_settle (h : st.settle = .ok st') (arguments : List String) :
    s.given st'.arguments.overrides =
      (st.awaited flag arguments).foldl s.take (s.given st.arguments.overrides) := by
  rcases settle_cases h with ⟨hpending, rfl⟩ | ⟨g, value, hpending, hgive⟩
  · simp only [State.awaited, hpending]
    rfl
  · simp only [State.awaited, hpending]
    have hgiven := given_give hs hv hgive
    exact hgiven

omit hs hv in
theorem pending_of_settle (h : st.settle = .ok st') : st'.pending = none := by
  rcases settle_cases h with ⟨hpending, rfl⟩ | ⟨g, value, _, hgive⟩
  · exact hpending
  · obtain ⟨a, _, rfl⟩ := give_eq_ok hgive
    rfl

/-- An option adds its value to those that were waiting. -/
theorem outlook_accept (h : st.accept g attached = .ok st') (arguments rest : List String) :
    outlook s flag st' rest =
      (st.awaited flag arguments ++
        ((if g = flag then attached.elim rest.head?.toList ([·]) else []) ++
          valuesOf flag.option rest)).foldl s.take (s.given st.arguments.overrides) := by
  obtain ⟨settled, hsettled, hcases⟩ := accept_cases h
  have hpending := pending_of_settle hsettled
  rw [List.foldl_append, ← given_settle hs hv hsettled]
  rcases hcases with ⟨_, rfl, rfl⟩ | ⟨value, _, rfl, hgive⟩ | ⟨hswitch, rfl, a, ha, rfl⟩
  · rfl
  · have hgiven := given_give hs hv hgive
    obtain ⟨a, _, rfl⟩ := give_eq_ok hgive
    simp only [outlook, State.awaited, hpending, List.nil_append] at hgiven ⊢
    rw [hgiven, ← List.foldl_append]
    rfl
  · have hg : g ≠ flag := by
      rintro rfl
      cases hswitch.symm.trans hv
    have hgiven := given_setSwitch ha fun hflag => hg (Option.some.inj (hflag.symm.trans hs))
    simp only [outlook, State.awaited, hpending, List.nil_append, if_neg hg]
    rw [hgiven]

theorem outlook_accept_other (h : st.accept g attached = .ok st') (hg : g ≠ flag)
    (arguments rest : List String) :
    outlook s flag st' rest =
      (st.awaited flag arguments ++ valuesOf flag.option rest).foldl s.take
        (s.given st.arguments.overrides) := by
  rw [outlook_accept hs hv h arguments, if_neg hg, List.nil_append]

theorem outlook_acceptLong (h : st.acceptLong cs = .ok st')
    (hargument : argument.toList = '-' :: '-' :: cs) (rest : List String) :
    outlook s flag st' rest = outlook s flag st (argument :: rest) := by
  rw [State.acceptLong] at h
  split at h
  · rename_i g hlong
    rcases long_cases hargument hlong with ⟨hrest, hbare⟩ | ⟨value, hrest, hattached⟩
    · rw [hrest] at h
      rw [outlook_accept hs hv h (argument :: rest), outlook, valuesOf_bare hbare]
      rfl
    · rw [hrest] at h
      rw [outlook_accept hs hv h (argument :: rest), outlook, valuesOf_attached hattached]
      rfl
  · cases h

omit hv in
theorem ne_of_ofShort? (h : Flag.ofShort? c = some g) : g ≠ flag := by
  rintro rfl
  have hshort : g ∈ [Flag.project, .config, .format, .quiet, .verbose, .help, .version] := by
    unfold Flag.ofShort? at h
    split at h <;> cases h <;> decide
  cases s <;> cases hs <;> revert hshort <;> decide

theorem outlook_acceptShort (h : st.acceptShort cs = .ok st') (hcs : cs ≠ [])
    (arguments rest : List String) :
    outlook s flag st' rest =
      (st.awaited flag arguments ++ valuesOf flag.option rest).foldl s.take
        (s.given st.arguments.overrides) := by
  induction cs generalizing st arguments with
  | nil => exact absurd rfl hcs
  | cons c cs ih =>
    rw [State.acceptShort] at h
    split at h
    · cases h
    · rename_i g hshort
      have hg := ne_of_ofShort? hs hshort
      split at h
      · split at h <;> exact outlook_accept_other hs hv h hg arguments rest
      · obtain ⟨next, hnext, h⟩ := Except.exists_of_bind_eq_ok h
        have hfirst := outlook_accept_other hs hv hnext hg arguments rest
        cases cs with
        | nil =>
          cases h
          exact hfirst
        | cons d cs =>
          rw [ih h (List.cons_ne_nil d cs) rest]
          exact hfirst

omit hs hv in
theorem outlook_acceptValue (h : st.acceptValue argument = .ok st')
    (hargument : ∀ cs, argument.toList ≠ '-' :: '-' :: cs) (rest : List String) :
    outlook s flag st' rest = outlook s flag st (argument :: rest) := by
  rw [State.acceptValue] at h
  split at h
  · rename_i g hpending
    cases h
    rw [outlook, outlook, valuesOf_of_not_long hargument]
    simp only [State.awaited, hpending, List.head?_cons, Option.toList_some]
  · cases h

theorem outlook_step (h : st.step argument = .ok st') (rest : List String) :
    outlook s flag st' rest = outlook s flag st (argument :: rest) := by
  rcases step_cases h with ⟨cs, hcs, h⟩ | ⟨hcs, h | ⟨cs, hbare, h⟩⟩
  · exact outlook_acceptLong hs hv h hcs rest
  · exact outlook_acceptValue h hcs rest
  · rw [outlook_acceptShort hs hv h hbare (argument :: rest), outlook, valuesOf_of_not_long hcs]

/-- Reading arguments gives a setting the values of its option. -/
theorem given_read {arguments : List String} (h : read st arguments = .ok st') :
    s.given st'.arguments.overrides = outlook s flag st arguments := by
  induction arguments generalizing st with
  | nil =>
    rw [outlook, valuesOf, List.append_nil]
    exact given_settle hs hv h []
  | cons argument arguments ih =>
    rcases read_cons_cases h with ⟨rfl, rfl, hsettled⟩ | ⟨next, hnext, hrest⟩
    · have hdashes : valuesOf flag.option ["--"] = [] := by
        cases flag <;> decide +kernel
      rw [outlook, hdashes, List.append_nil]
      exact given_settle hs hv hsettled ["--"]
    · rw [ih hrest, outlook_step hs hv hnext]

end Outlook

section Switches

theorem eq_of_setValue_switch (hv : g.takesValue = false) (h : a.setValue g value = .ok a') :
    a = a' := by
  cases g <;> first | exact Except.ok.inj h | cases hv

variable {on : Option α} (hs : s.flag? = some flag) (hv : flag.takesValue = false)
  (hon : ∀ a a' : Arguments, a.setSwitch flag = .ok a' → s.given a'.overrides = on)

include hs hv in
theorem given_settle_switch (h : st.settle = .ok st') :
    s.given st'.arguments.overrides = s.given st.arguments.overrides := by
  rcases settle_cases h with ⟨_, rfl⟩ | ⟨g, value, _, hgive⟩
  · rfl
  · obtain ⟨a, ha, rfl⟩ := give_eq_ok hgive
    by_cases hg : s.flag? = some g
    · obtain rfl := Option.some.inj (hs.symm.trans hg)
      obtain rfl := eq_of_setValue_switch hv ha
      rfl
    · exact given_setValue ha hg

include hs hv hon

theorem given_accept_switch (h : st.accept g attached = .ok st') :
    s.given st'.arguments.overrides =
      if g = flag then on else s.given st.arguments.overrides := by
  obtain ⟨settled, hsettled, hcases⟩ := accept_cases h
  have hbefore := given_settle_switch hs hv hsettled
  have hother : g ≠ flag → s.flag? ≠ some g :=
    fun hg hflag => hg (Option.some.inj (hflag.symm.trans hs))
  rcases hcases with ⟨hvalue, rfl, rfl⟩ | ⟨value, hvalue, rfl, hgive⟩ | ⟨_, rfl, a, ha, rfl⟩
  · rw [if_neg, ← hbefore]
    rintro rfl
    cases hvalue.symm.trans hv
  · have hg : g ≠ flag := by
      rintro rfl
      cases hvalue.symm.trans hv
    obtain ⟨a, ha, rfl⟩ := give_eq_ok hgive
    rw [if_neg hg, ← hbefore]
    exact given_setValue ha (hother hg)
  · by_cases hg : g = flag
    · subst hg
      rw [if_pos rfl]
      exact hon _ _ ha
    · rw [if_neg hg, ← hbefore]
      exact given_setSwitch ha (hother hg)

theorem given_acceptShort_switch (h : st.acceptShort cs = .ok st') :
    s.given st'.arguments.overrides = s.given st.arguments.overrides := by
  induction cs generalizing st with
  | nil =>
    cases h
    rfl
  | cons c cs ih =>
    rw [State.acceptShort] at h
    split at h
    · cases h
    · rename_i g hshort
      have hg : g ≠ flag := ne_of_ofShort? hs hshort
      split at h
      · split at h <;> rw [given_accept_switch hs hv hon h, if_neg hg]
      · obtain ⟨next, hnext, h⟩ := Except.exists_of_bind_eq_ok h
        rw [ih h, given_accept_switch hs hv hon hnext, if_neg hg]

theorem given_acceptLong_switch (h : st.acceptLong cs = .ok st')
    (hargument : argument.toList = '-' :: '-' :: cs) :
    s.given st'.arguments.overrides =
      if argument = flag.option then on else s.given st.arguments.overrides := by
  rw [State.acceptLong] at h
  split at h
  · rename_i g hlong
    rw [given_accept_switch hs hv hon h]
    rcases long_cases hargument hlong with ⟨_, hbare⟩ | ⟨value, hrest, hattached⟩
    · apply if_congr _ rfl rfl
      constructor
      · rintro rfl
        exact String.toList_inj.mp hbare
      · rintro rfl
        exact option_inj hbare.symm
    · have hg : g ≠ flag := by
        rintro rfl
        obtain ⟨_, _, ⟨hg, _⟩ | ⟨_, hg, _⟩ | ⟨_, hnone, _⟩⟩ := accept_cases h
        · cases hg.symm.trans hv
        · cases hg.symm.trans hv
        · rw [hrest] at hnone
          cases hnone
      rw [if_neg hg, if_neg]
      rintro rfl
      apply notMem_option flag
      rw [hattached]
      exact List.mem_append_right _ List.mem_cons_self
  · cases h

theorem given_step_switch (h : st.step argument = .ok st') :
    s.given st'.arguments.overrides =
      if argument = flag.option then on else s.given st.arguments.overrides := by
  rcases step_cases h with ⟨cs, hcs, h⟩ | ⟨hcs, h⟩
  · exact given_acceptLong_switch hs hv hon h hcs
  · have hother : argument ≠ flag.option := by
      rintro rfl
      obtain ⟨name, hname⟩ := exists_option flag
      exact hcs name hname
    rw [if_neg hother]
    rcases h with h | ⟨cs, _, h⟩
    · rw [State.acceptValue] at h
      split at h <;> cases h
      rfl
    · exact given_acceptShort_switch hs hv hon h

theorem given_read_switch {arguments : List String} (h : read st arguments = .ok st') :
    s.given st'.arguments.overrides =
      if flag.option ∈ arguments then on else s.given st.arguments.overrides := by
  induction arguments generalizing st with
  | nil => exact given_settle_switch hs hv h
  | cons argument arguments ih =>
    rcases read_cons_cases h with ⟨rfl, rfl, hsettled⟩ | ⟨next, hnext, hrest⟩
    · rw [given_settle_switch hs hv hsettled, if_neg]
      cases flag <;> decide
    · rw [ih hrest, given_step_switch hs hv hon hnext]
      by_cases hmem : flag.option ∈ arguments
      · rw [if_pos hmem, if_pos (List.mem_cons_of_mem _ hmem)]
      · rw [if_neg hmem]
        apply if_congr _ rfl rfl
        simp [hmem, eq_comm]

end Switches

section Taken

theorem foldl_take_last (f : String → Option α) (values : List String) (given : Option α) :
    values.foldl (fun _ value => f value) given =
      if values = [] then given else values.getLast?.bind f := by
  induction values generalizing given with
  | nil => rfl
  | cons value values ih =>
    rw [List.foldl_cons, ih, if_neg (List.cons_ne_nil _ _)]
    cases values <;> rfl

theorem foldl_take_all (values : List String) (given : Option (List String)) :
    values.foldl (fun given value => some (given.getD [] ++ [value])) given =
      if values = [] then given else some (given.getD [] ++ values) := by
  induction values generalizing given with
  | nil => rfl
  | cons value values ih =>
    rw [List.foldl_cons, ih, if_neg (List.cons_ne_nil _ _)]
    cases values <;> simp

variable {arguments : List String} (hst : read {} arguments = .ok st)
include hst

theorem given_last (f : String → Option α) (hs : s.flag? = some flag)
    (hv : flag.takesValue = true) (hs' : s.take = fun _ => f)
    (hnone : s.given ({} : Arguments).overrides = none) :
    s.given st.arguments.overrides = (valuesOf flag.option arguments).getLast?.bind f := by
  rw [given_read hs hv hst, outlook, hnone, hs']
  change (valuesOf flag.option arguments).foldl (fun _ value => f value) none = _
  rw [foldl_take_last]
  split
  · rename_i hnil
    rw [hnil]
    rfl
  · rfl

theorem given_all {s : Setting (List String)} (hs : s.flag? = some flag)
    (hv : flag.takesValue = true)
    (hs' : s.take = fun given value => some (given.getD [] ++ [value]))
    (hnone : s.given ({} : Arguments).overrides = none) :
    s.given st.arguments.overrides = some values ↔
      valuesOf flag.option arguments = values ∧ values ≠ [] := by
  rw [given_read hs hv hst, outlook, hnone, hs']
  change (valuesOf flag.option arguments).foldl
    (fun given value => some (given.getD [] ++ [value])) none = _ ↔ _
  rw [foldl_take_all]
  split
  · rename_i hnil
    rw [hnil]
    simp [eq_comm]
  · rename_i hne
    simp only [Option.getD_none, List.nil_append, Option.some.injEq]
    constructor
    · rintro rfl
      exact ⟨rfl, hne⟩
    · exact And.left

end Taken

theorem ofWord?_eq_some_iff {format : MethodFormat} :
    MethodFormat.ofWord? word = some format ↔ word = format.word := by
  constructor
  · intro h
    unfold MethodFormat.ofWord? at h
    split at h <;> cases h <;> rfl
  · rintro rfl
    cases format <;> rfl

theorem ite_eq_some_true {p : Prop} [Decidable p] {value : Bool} :
    (if p then some true else none) = some value ↔ p ∧ value = true := by
  by_cases h : p
  · rw [if_pos h, Option.some.injEq, eq_comm, and_iff_right h]
  · rw [if_neg h]
    exact ⟨nofun, fun hp => absurd hp.1 h⟩

/-- Arguments give a setting what the values of its option say. -/
theorem given_eq_some_iff {arguments : List String} {value : α} (h : parse arguments = .ok a) :
    s.given a.overrides = some value ↔ Gives arguments s value := by
  obtain ⟨st, hst, ⟨⟩⟩ := Except.exists_of_bind_eq_ok h
  cases s with
  | roots => exact given_all hst (s := .roots) rfl rfl rfl rfl
  | exclude => exact given_all hst (s := .exclude) rfl rfl rfl rfl
  | extension => exact ⟨nofun, nofun⟩
  | methodFormat =>
    rw [given_last hst MethodFormat.ofWord? rfl rfl rfl rfl, Option.bind_eq_some_iff]
    simp only [ofWord?_eq_some_iff, exists_eq_right]
    cases value <;> rfl
  | dryRun =>
    have hon : ∀ a a' : Arguments, a.setSwitch .dryRun = .ok a' →
        Setting.dryRun.given a'.overrides = some true := by
      intro a a' h
      cases h
      rfl
    rw [given_read_switch rfl rfl hon hst]
    exact ite_eq_some_true
  | parallel =>
    have hon : ∀ a a' : Arguments, a.setSwitch .parallel = .ok a' →
        Setting.parallel.given a'.overrides = some true := by
      intro a a' h
      cases h
      rfl
    rw [given_read_switch rfl rfl hon hst]
    exact ite_eq_some_true
  | _ =>
    rw [given_last hst some rfl rfl rfl rfl, Option.bind_fun_some]
    rfl

end CommandLine
end Scaffold
