import PlZero.CommandLine.Options

/-! # Arguments

How flags and a source are written as arguments, and when such arguments are accepted: no flag may
be given twice, and no flag may exclude another one.
-/

namespace PlZero.CommandLine

namespace Flag

/-- The flags that say what is done with a source. -/
def choices : List Flag := [.inlineSource, .expr, .tree, .dumpVars]

/-- No flag excludes another one. -/
def Compatible (flags : List Flag) : Prop :=
  ∀ flag ∈ flags, ∀ other ∈ flags, flag.excludes other = false

instance (flags : List Flag) : Decidable (Compatible flags) :=
  inferInstanceAs (Decidable (∀ flag ∈ flags, ∀ other ∈ flags, flag.excludes other = false))

theorem ofShort?_eq_some {flag : Flag} {letter : Char} (hletter : flag.short? = some letter) :
    ofShort? letter = some flag := by
  cases flag <;> cases hletter <;> rfl

end Flag

/-- Arguments that give flags, in their order, and a source. A flag is given by its long spelling
or as one of some joined short ones. A source that starts with a dash comes last, behind two
dashes. -/
inductive Spells : List String → List Flag → Option String → Prop where
  | nil : Spells [] [] none
  | long {flag arguments flags source?} : flag ∈ Flag.choices → Spells arguments flags source? →
      Spells (("--" ++ flag.long) :: arguments) (flag :: flags) source?
  | shorts {letters joined arguments flags source?} : joined ≠ [] → joined ⊆ Flag.choices →
      joined.map Flag.short? = letters.map some → Spells arguments flags source? →
      Spells (("-" ++ String.ofList letters) :: arguments) (joined ++ flags) source?
  | source {text arguments flags} : text.toList.head? ≠ some '-' → Spells arguments flags none →
      Spells (text :: arguments) flags (some text)
  | dashes {text} : Spells ["--", text] [] (some text)

namespace Given

variable {given next : Given} {flags : List Flag}

theorem takeFlag_of_mem {flag : Flag} (hflag : flag ∈ Flag.choices) :
    given.takeFlag flag =
      if flag ∈ given.flags then .error (.misuse (.repeatedFlag flag))
      else .ok ⟨given.flags ++ [flag], given.source?⟩ := by
  cases flag with
  | help | version | verbose =>
      exact absurd hflag (by decide)
  | _ => simp [takeFlag, Flag.counts]

/-- Taking a flag and then others ends well if no flag is given twice. -/
theorem takeFlag_bind_eq_ok_iff {flag : Flag} (hflag : flag ∈ Flag.choices)
    (hnodup : given.flags.Nodup) {take : Given → Except Notice Given} {source? : Option String}
    (htake : (given.flags ++ [flag]).Nodup →
      (take ⟨given.flags ++ [flag], given.source?⟩ = .ok next ↔
        (given.flags ++ [flag] ++ flags).Nodup ∧
          next = ⟨given.flags ++ [flag] ++ flags, source?⟩)) :
    (given.takeFlag flag >>= take) = .ok next ↔
      (given.flags ++ flag :: flags).Nodup ∧ next = ⟨given.flags ++ flag :: flags, source?⟩ := by
  rw [takeFlag_of_mem hflag]
  by_cases hmem : flag ∈ given.flags
  · rw [if_pos hmem]
    constructor
    · nofun
    · rintro ⟨hall, -⟩
      exact ((List.nodup_append.mp hall).2.2 flag hmem flag List.mem_cons_self rfl).elim
  · rw [if_neg hmem, List.append_cons given.flags flag flags]
    refine htake (List.nodup_append.mpr ⟨hnodup, by simp, ?_⟩)
    rintro other hother last hlast rfl
    exact hmem (List.mem_singleton.mp hlast ▸ hother)

theorem takeShorts_bind_eq_ok_iff {letters : List Char} {joined : List Flag}
    (hjoined : joined ⊆ Flag.choices) (hletters : joined.map Flag.short? = letters.map some)
    (hnodup : given.flags.Nodup) {take : Given → Except Notice Given} {source? : Option String}
    (htake : (given.flags ++ joined).Nodup →
      (take ⟨given.flags ++ joined, given.source?⟩ = .ok next ↔
        (given.flags ++ joined ++ flags).Nodup ∧
          next = ⟨given.flags ++ joined ++ flags, source?⟩)) :
    (given.takeShorts letters >>= take) = .ok next ↔
      (given.flags ++ (joined ++ flags)).Nodup ∧
        next = ⟨given.flags ++ (joined ++ flags), source?⟩ := by
  induction joined generalizing given letters with
  | nil =>
      obtain rfl : letters = [] := by simpa using hletters.symm
      rw [List.append_nil] at htake
      exact htake hnodup
  | cons flag joined ih =>
      obtain ⟨hflag, hjoined⟩ := List.cons_subset.mp hjoined
      cases letters with
      | nil => simp at hletters
      | cons letter letters =>
          obtain ⟨hletter, hletters⟩ := List.cons.inj hletters
          rw [takeShorts, Flag.ofShort?_eq_some hletter]
          change (given.takeFlag flag >>= (·.takeShorts letters)) >>= take = _ ↔ _
          rw [bind_assoc]
          refine takeFlag_bind_eq_ok_iff hflag hnodup fun hnodup => ih hjoined hletters hnodup ?_
          rwa [List.append_cons] at htake

theorem takeAll_long (flag : Flag) (arguments : List String) :
    given.takeAll (("--" ++ flag.long) :: arguments) =
      given.takeFlag flag >>= (·.takeAll arguments) := by
  cases flag <;> rfl

theorem takeAll_shorts {letter : Char} {letters : List Char} (hletter : letter ≠ '-')
    (arguments : List String) :
    given.takeAll (("-" ++ String.ofList (letter :: letters)) :: arguments) =
      given.takeShorts (letter :: letters) >>= (·.takeAll arguments) := by
  have htext : ("-" ++ String.ofList (letter :: letters)).toList = '-' :: letter :: letters := by
    simp
  rw [takeAll, htext]
  split
  next heq => simp [hletter] at heq
  next heq => simp [hletter] at heq
  next heq =>
    obtain ⟨rfl, rfl⟩ := List.cons.inj (List.cons.inj heq).2
    rfl
  next hne => exact absurd rfl (hne letter letters)

theorem takeAll_source {text : String} (htext : text.toList.head? ≠ some '-')
    (arguments : List String) :
    given.takeAll (text :: arguments) = given.takeSource text >>= (·.takeAll arguments) := by
  rw [takeAll]
  split
  next heq => simp [heq] at htext
  next heq => simp [heq] at htext
  next heq => simp [heq] at htext
  next => rfl

/-- Arguments are taken if no flag is given twice. -/
theorem takeAll_eq_ok_iff {arguments : List String} {source? : Option String}
    (hspells : Spells arguments flags source?) (hnodup : given.flags.Nodup)
    (hsource : given.source? = .none ∨ source? = .none) :
    given.takeAll arguments = .ok next ↔
      (given.flags ++ flags).Nodup ∧
        next = ⟨given.flags ++ flags, given.source?.or source?⟩ := by
  induction hspells generalizing given with
  | nil => simp [takeAll, hnodup, eq_comm]
  | long hflag _ ih =>
      rw [takeAll_long]
      exact takeFlag_bind_eq_ok_iff hflag hnodup fun hnodup =>
        @ih ⟨_, given.source?⟩ hnodup hsource
  | @shorts letters joined arguments flags source? hnil hjoined hletters _ ih =>
      obtain ⟨letter, others, hletter, rfl⟩ : ∃ letter others, letter ≠ '-' ∧
          letters = letter :: others := by
        cases joined with
        | nil => exact absurd rfl hnil
        | cons flag joined =>
            cases letters with
            | nil => simp at hletters
            | cons letter others =>
                refine ⟨letter, others, ?_, rfl⟩
                rintro rfl
                have hshort := (List.cons.inj hletters).1
                cases flag <;> cases hshort
      rw [takeAll_shorts hletter]
      exact takeShorts_bind_eq_ok_iff hjoined hletters hnodup fun hnodup =>
        @ih ⟨_, given.source?⟩ hnodup hsource
  | @source text arguments flags htext _ ih =>
      have hnone : given.source? = .none := hsource.resolve_right (by simp)
      have htake : given.takeSource text = .ok ⟨given.flags, some text⟩ := by
        rw [takeSource, hnone]
      rw [takeAll_source htext, htake, hnone]
      exact @ih ⟨given.flags, some text⟩ hnodup (.inr rfl)
  | @dashes text =>
      have hnone : given.source? = .none := hsource.resolve_right (by simp)
      have htake : given.takeAll ["--", text] = .ok ⟨given.flags, some text⟩ := by
        change (given.takeSource text >>= fun given => given.takeSources []) = _
        rw [takeSource, hnone]
        rfl
      simp [htake, hnone, hnodup, eq_comm]

theorem conflict?_eq_none_iff : conflict? flags = .none ↔ Flag.Compatible flags := by
  simp [conflict?, Flag.Compatible, List.filter_eq_nil_iff]

end Given

/-- What flags and a source ask for. -/
def Options.ofFlags (flags : List Flag) (source : String) : Options where
  inlineSource := .inlineSource ∈ flags
  expr := .expr ∈ flags
  tree := .tree ∈ flags
  dumpVars := .dumpVars ∈ flags
  source := source

/-- Arguments that spell flags and a source are accepted if no flag is given twice and none
excludes another one, and then they ask for what the flags say. -/
theorem Options.ofArguments_eq_ok_iff {arguments : List String} {flags : List Flag} {text : String}
    {options : Options} (hspells : Spells arguments flags (some text)) :
    ofArguments arguments = .ok options ↔
      flags.Nodup ∧ Flag.Compatible flags ∧ options = .ofFlags flags text := by
  have htaken : ∀ given, Given.none.takeAll arguments = .ok given ↔
      flags.Nodup ∧ given = ⟨flags, some text⟩ := fun given =>
    Given.takeAll_eq_ok_iff hspells List.nodup_nil (.inl rfl)
  have hoptions : Given.options ⟨flags, some text⟩ = .ok options ↔
      Flag.Compatible flags ∧ options = .ofFlags flags text := by
    rw [← Given.conflict?_eq_none_iff, Given.options]
    cases Given.conflict? flags <;> simp [eq_comm, ofFlags]
  rw [← hoptions, ofArguments]
  cases htake : Given.none.takeAll arguments with
  | error notice =>
      have hrefused := (htaken ⟨flags, some text⟩).mpr
      rw [htake] at hrefused
      constructor
      · nofun
      · rintro ⟨hnodup, -⟩
        exact nomatch hrefused ⟨hnodup, rfl⟩
  | ok given =>
      obtain ⟨hnodup, rfl⟩ := (htaken given).mp htake
      simp [hnodup, bind, Except.bind]

end PlZero.CommandLine
