import Mathlib.Data.Finset.Card
import Mathlib.Data.List.Sort
import PlZero.Environment
import PlZero.Proofs.Text.Utf8

/-! # Variables after a sequence of assignments

Of a sequence of assignments only the last one to each name is left, and every view of the
variables shows just these: the value of a name, the number of names, the list by name and any
other enumeration. The list is in the order of the bytes of the names, so it does not depend on
the order of the assignments; and the variables are the same if their lists are.
-/

namespace PlZero

/-! ## Lists of variables -/

/-- The variables with their values, in ascending order of their names. -/
structure Environment.Lists (env : Environment) (bindings : List (String × Value)) : Prop where
  ascending : bindings.Pairwise fun first next => first.1 < next.1
  mem_iff : ∀ name value, (name, value) ∈ bindings ↔ env.get? name = some value

theorem Environment.lists_toList (env : Environment) : env.Lists env.toList where
  ascending := by
    have hordered := @Std.ExtTreeMap.ordered_keys_toList _ _ _ env.bindings _
    exact hordered.imp fun hlt => compareOfLessAndEq_eq_lt.mp hlt
  mem_iff name value := Std.ExtTreeMap.mem_toList_iff_getElem?_eq_some

/-- There is one list of the variables. -/
theorem Environment.Lists.unique {env : Environment} {bindings others : List (String × Value)}
    (hbindings : env.Lists bindings) (hothers : env.Lists others) : bindings = others := by
  have : Std.Irrefl fun first next : String × Value => first.1 < next.1 :=
    ⟨fun binding => String.lt_irrefl binding.1⟩
  refine hbindings.ascending.eq_of_mem_iff hothers.ascending fun binding => ?_
  rw [hbindings.mem_iff, hothers.mem_iff]

/-- The variables with their values in some order, each of them once. -/
structure Environment.Enumerates (env : Environment) (bindings : List (String × Value)) : Prop where
  nodup : (bindings.map Prod.fst).Nodup
  mem_iff : ∀ name value, (name, value) ∈ bindings ↔ env.get? name = some value

namespace Environment

theorem nodup_names (env : Environment) : (env.toList.map Prod.fst).Nodup :=
  List.pairwise_map.mpr <| env.lists_toList.ascending.imp fun {first next} hlt =>
    fun heq : first.1 = next.1 => String.lt_irrefl _ (heq ▸ hlt)

/-- The enumerations of the variables are the rearrangements of their list. -/
theorem enumerates_iff_perm {env : Environment} {bindings : List (String × Value)} :
    env.Enumerates bindings ↔ bindings.Perm env.toList := by
  constructor
  · intro henum
    refine (List.perm_ext_iff_of_nodup henum.nodup.of_map env.nodup_names.of_map).mpr ?_
    intro binding
    rw [henum.mem_iff, env.lists_toList.mem_iff]
  · intro hperm
    refine ⟨(hperm.map Prod.fst).nodup_iff.mpr env.nodup_names, fun name value => ?_⟩
    rw [hperm.mem_iff, env.lists_toList.mem_iff]

theorem mem_names_iff {env : Environment} {name : String} :
    name ∈ env.toList.map Prod.fst ↔ env.get? name ≠ none := by
  simp [env.lists_toList.mem_iff, Option.ne_none_iff_exists']

/-- Two environments are the same if every name has the same value in them. -/
theorem ext_get? {left right : Environment} (hsame : ∀ name, left.get? name = right.get? name) :
    left = right := by
  refine toList_inj.mp (left.lists_toList.unique ⟨right.lists_toList.ascending, ?_⟩)
  intro name value
  rw [right.lists_toList.mem_iff, hsame]

/-- Assignments to different names may be exchanged. -/
theorem assign_comm (env : Environment) {first next : String} (hne : first ≠ next)
    (value other : Value) :
    (env.assign first value).assign next other = (env.assign next other).assign first value := by
  refine ext_get? fun name => ?_
  simp only [get?_assign]
  by_cases hfirst : first = name
  · rw [if_pos hfirst, if_pos hfirst, if_neg fun hnext => hne (hfirst.trans hnext.symm)]
  · rw [if_neg hfirst, if_neg hfirst]

/-! ## Last writes -/

/-- The variables after some more assignments. -/
def assignAll (env : Environment) (writes : List (String × Value)) : Environment :=
  writes.foldl (fun env write => env.assign write.1 write.2) env

@[simp]
theorem assignAll_nil (env : Environment) : env.assignAll [] = env := rfl

@[simp]
theorem assignAll_cons (env : Environment) (write : String × Value)
    (writes : List (String × Value)) :
    env.assignAll (write :: writes) = (env.assign write.1 write.2).assignAll writes :=
  rfl

theorem assignAll_append (env : Environment) (writes more : List (String × Value)) :
    env.assignAll (writes ++ more) = (env.assignAll writes).assignAll more :=
  List.foldl_append

end Environment

/-- A name has no assignment in a sequence. -/
def Unwritten (writes : List (String × Value)) (name : String) : Prop :=
  ∀ write ∈ writes, write.1 ≠ name

/-- The last value that a sequence of assignments gives a name. -/
def LastWrite (writes : List (String × Value)) (name : String) (value : Value) : Prop :=
  ∃ earlier later, writes = earlier ++ (name, value) :: later ∧ Unwritten later name

section LastWrites

variable {write : String × Value} {writes : List (String × Value)} {name : String} {value : Value}

theorem unwritten_nil (name : String) : Unwritten [] name :=
  nofun

theorem unwritten_cons_iff :
    Unwritten (write :: writes) name ↔ write.1 ≠ name ∧ Unwritten writes name :=
  List.forall_mem_cons

theorem not_lastWrite_nil : ¬ LastWrite [] name value := by
  rintro ⟨earlier, later, heq, -⟩
  simp at heq

/-- The first assignment of a sequence counts if its name has no other one. -/
theorem lastWrite_cons_iff :
    LastWrite (write :: writes) name value ↔
      LastWrite writes name value ∨ Unwritten writes name ∧ write = (name, value) := by
  constructor
  · rintro ⟨_ | ⟨first, earlier⟩, later, heq, hlater⟩
    · obtain ⟨rfl, rfl⟩ := List.cons.inj heq
      exact .inr ⟨hlater, rfl⟩
    · obtain ⟨-, rfl⟩ := List.cons.inj heq
      exact .inl ⟨earlier, later, rfl, hlater⟩
  · rintro (⟨earlier, later, rfl, hlater⟩ | ⟨hunwritten, rfl⟩)
    · exact ⟨write :: earlier, later, rfl, hlater⟩
    · exact ⟨[], writes, rfl, hunwritten⟩

end LastWrites

namespace Environment

variable {env : Environment} {writes others : List (String × Value)} {name : String}
  {value : Value}

theorem get?_assignAll_eq_none_iff :
    (env.assignAll writes).get? name = none ↔ Unwritten writes name ∧ env.get? name = none := by
  induction writes generalizing env with
  | nil => simp [unwritten_nil]
  | cons write writes ih =>
      rw [assignAll_cons, ih, get?_assign, unwritten_cons_iff]
      by_cases hname : write.1 = name
      · simp [hname]
      · simp [hname]

/-- A name has its last value, or the one from before if there is no assignment to it. -/
theorem get?_assignAll_eq_some_iff :
    (env.assignAll writes).get? name = some value ↔
      LastWrite writes name value ∨ Unwritten writes name ∧ env.get? name = some value := by
  induction writes generalizing env with
  | nil => simp [unwritten_nil, not_lastWrite_nil]
  | cons write writes ih =>
      rw [assignAll_cons, ih, get?_assign, lastWrite_cons_iff, unwritten_cons_iff, or_assoc]
      refine or_congr_right ?_
      by_cases hname : write.1 = name
      · simp [hname, Prod.ext_iff]
      · simp [hname, Prod.ext_iff]

/-- All views of the variables show the last writes of a sequence of assignments. -/
structure Shows (env : Environment) (writes : List (String × Value)) : Prop where
  /-- the list is in the order of the names, by the bytes of their encodings -/
  ascending : env.toList.Pairwise fun first next => Text.utf8 first.1 < Text.utf8 next.1
  /-- every name that was written is listed once, and no other -/
  count_names : ∀ name, (env.toList.map Prod.fst).count name =
    if name ∈ writes.map Prod.fst then 1 else 0
  mem_toList_iff : ∀ name value, (name, value) ∈ env.toList ↔ LastWrite writes name value
  get?_eq_some_iff : ∀ name value, env.get? name = some value ↔ LastWrite writes name value
  get?_eq_none_iff : ∀ name, env.get? name = none ↔ Unwritten writes name
  lookup_of_lastWrite : ∀ name value, LastWrite writes name value → env.lookup name = .ok value
  lookup_of_unwritten : ∀ name, Unwritten writes name →
    env.lookup name = .error (.undefinedVariable name)
  size_eq : env.size = (writes.map Prod.fst).toFinset.card
  isEmpty_iff : env.isEmpty ↔ writes = []
  /-- in whatever order the variables are gone through, they are the ones of the list -/
  enumerates_iff : ∀ bindings, env.Enumerates bindings ↔ bindings.Perm env.toList
  mem_lines_iff : ∀ line, line ∈ env.lines ↔
    ∃ name value, LastWrite writes name value ∧ name ++ " = " ++ value.render = line

theorem get?_assignAll_empty_eq_some_iff :
    (empty.assignAll writes).get? name = some value ↔ LastWrite writes name value := by
  simp [get?_assignAll_eq_some_iff]

theorem get?_assignAll_empty_eq_none_iff :
    (empty.assignAll writes).get? name = none ↔ Unwritten writes name := by
  simp [get?_assignAll_eq_none_iff]

theorem mem_names_assignAll_iff :
    name ∈ (empty.assignAll writes).toList.map Prod.fst ↔ name ∈ writes.map Prod.fst := by
  rw [mem_names_iff, Ne, get?_assignAll_empty_eq_none_iff]
  simp [Unwritten]

theorem size_eq_card_names (env : Environment) :
    env.size = (env.toList.map Prod.fst).toFinset.card := by
  rw [List.toFinset_card_of_nodup env.nodup_names, List.length_map]
  exact Std.ExtTreeMap.length_toList.symm

theorem isEmpty_iff_names_eq_nil {env : Environment} :
    env.isEmpty ↔ env.toList.map Prod.fst = [] := by
  rw [List.map_eq_nil_iff, ← List.isEmpty_iff, toList, Std.ExtTreeMap.isEmpty_toList, isEmpty]

theorem shows_assignAll (writes : List (String × Value)) :
    (empty.assignAll writes).Shows writes where
  ascending := (lists_toList _).ascending.imp Text.utf8_lt
  count_names name := by
    rw [List.Nodup.count (nodup_names _)]
    exact if_congr mem_names_assignAll_iff rfl rfl
  mem_toList_iff name value := by
    rw [(lists_toList _).mem_iff, get?_assignAll_empty_eq_some_iff]
  get?_eq_some_iff _ _ := get?_assignAll_empty_eq_some_iff
  get?_eq_none_iff _ := get?_assignAll_empty_eq_none_iff
  lookup_of_lastWrite name value hlast := by
    rw [lookup, get?_assignAll_empty_eq_some_iff.mpr hlast]
  lookup_of_unwritten name hunwritten := by
    rw [lookup, get?_assignAll_empty_eq_none_iff.mpr hunwritten]
  size_eq := by
    rw [size_eq_card_names]
    congr 1
    ext name
    rw [List.mem_toFinset, List.mem_toFinset, mem_names_assignAll_iff]
  isEmpty_iff := by
    rw [isEmpty_iff_names_eq_nil, List.eq_nil_iff_forall_not_mem, ← List.map_eq_nil_iff,
      List.eq_nil_iff_forall_not_mem]
    exact forall_congr' fun name => not_congr mem_names_assignAll_iff
  enumerates_iff _ := enumerates_iff_perm
  mem_lines_iff line := by
    simp only [lines, List.mem_map, Prod.exists, (lists_toList _).mem_iff,
      get?_assignAll_empty_eq_some_iff]

theorem assignAll_eq_iff :
    empty.assignAll writes = empty.assignAll others ↔
      ∀ name value, LastWrite writes name value ↔ LastWrite others name value := by
  simp only [← get?_assignAll_empty_eq_some_iff]
  constructor
  · intro heq name value
    rw [heq]
  · exact fun hsame => ext_get? fun name => Option.ext (hsame name)

/-- Whatever is assigned to whatever names in whatever order: all views of the variables show the
last writes. Two sequences leave the same variables if and only if they leave the same list, which
is to say the same last writes, and neighbours with different names may change places. -/
theorem last_writes_win :
    (∀ writes, (empty.assignAll writes).Shows writes) ∧
    (∀ writes others,
      (empty.assignAll writes = empty.assignAll others ↔
        (empty.assignAll writes).toList = (empty.assignAll others).toList) ∧
      (empty.assignAll writes = empty.assignAll others ↔
        ∀ name value, LastWrite writes name value ↔ LastWrite others name value)) ∧
    ∀ (before after : List (String × Value)) (first next : String × Value), first.1 ≠ next.1 →
      empty.assignAll (before ++ first :: next :: after) =
        empty.assignAll (before ++ next :: first :: after) := by
  refine ⟨shows_assignAll, fun writes others => ⟨toList_inj.symm, assignAll_eq_iff⟩, ?_⟩
  intro before after first next hne
  rw [assignAll_append, assignAll_append, assignAll_cons, assignAll_cons, assignAll_cons,
    assignAll_cons, assign_comm _ hne]

/-- Two names that are in one order by code points and in the other one by units of 16 bits. -/
theorem last_writes_win_beyond_ascii :
    "😀" ≠ "\uffff" ∧
      empty.assignAll ([("😀", .integer 1)] ++
          ("😀", .boolean true) :: ("\uffff", .text "é") :: [("x", .integer 2)]) =
        empty.assignAll ([("😀", .integer 1)] ++
          ("\uffff", .text "é") :: ("😀", .boolean true) :: [("x", .integer 2)]) := by
  have hne : "😀" ≠ "\uffff" := by decide
  exact ⟨hne, last_writes_win.2.2 _ _ ("😀", .boolean true) ("\uffff", .text "é") hne⟩

end Environment

end PlZero
