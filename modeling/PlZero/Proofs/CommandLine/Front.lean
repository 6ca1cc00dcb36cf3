import PlZero.CommandLine.Run
import PlZero.Proofs.CommandLine.Arguments
import PlZero.Proofs.Environment
import PlZero.Proofs.Interpreter

/-! # The command line as a front of the language

What a command line does with a source is what the language does with it: the text is parsed,
evaluated or run, and the process shows the outcome. How the flags are written, and whether the
source stands in a file or among the arguments, makes no difference.
-/

namespace PlZero

namespace CommandLine

/-- What a result has to say: a text if there is one, or else what a user is told. -/
def told {Result Error : Type} (text : Result → String) (diagnostic : Error → Diagnostic) :
    Except Error Result → Except Diagnostic String
  | .ok result => .ok (text result)
  | .error error => .error (diagnostic error)

/-- One line for every variable. -/
def dumpText (bindings : List (String × Value)) : String :=
  String.join (bindings.map fun (name, value) => name ++ " = " ++ value.render ++ "\n")

/-- What the language does with a source: the bytes that are printed meanwhile, and then a text or
what a user is told. -/
inductive Calls (budget : Nat) (flags : List Flag) (source : String) :
    ByteArray → Except Diagnostic String → Prop where
  | exprTree : .tree ∈ flags → .expr ∈ flags →
      Calls budget flags source .empty
        (told (fun tree => tree.outline.page 0 ++ "\n") (·.diagnostic source) (Expr.parse source))
  | programTree : .tree ∈ flags → .expr ∉ flags →
      Calls budget flags source .empty
        (told (fun tree => tree.outline.page 0 ++ "\n") (·.diagnostic source)
          (Program.parse source))
  | value : .tree ∉ flags → .expr ∈ flags →
      Calls budget flags source .empty
        (told (fun value => value.render ++ "\n") (·.diagnostic source)
          ((State.fresh .unlimited).interpretExpr source))
  | run {result final bindings} : .tree ∉ flags → .expr ∉ flags →
      (State.fresh .unlimited).interpret budget source = some (result, final) →
      final.env.Lists bindings →
      Calls budget flags source final.sink.written
        (told (fun _ => if .dumpVars ∈ flags then dumpText bindings else "") (·.diagnostic source)
          result)

/-- Two command lines say the same about what is done with a source. -/
def SameChoices (flags others : List Flag) : Prop :=
  ∀ flag, flag ≠ .inlineSource → (flag ∈ flags ↔ flag ∈ others)

namespace Calls

variable {budget more : Nat} {flags others : List Flag} {source : String} {printed : ByteArray}
  {outcome : Except Diagnostic String}

theorem mono (hcalls : Calls budget flags source printed outcome) (hle : budget ≤ more) :
    Calls more flags source printed outcome := by
  cases hcalls with
  | exprTree htree hexpr => exact .exprTree htree hexpr
  | programTree htree hexpr => exact .programTree htree hexpr
  | value htree hexpr => exact .value htree hexpr
  | run htree hexpr hrun hlists => exact .run htree hexpr (State.interpret_mono hle hrun) hlists

theorem congr (hcalls : Calls budget flags source printed outcome)
    (hsame : SameChoices flags others) : Calls budget others source printed outcome := by
  have htree := hsame .tree (by decide)
  have hexpr := hsame .expr (by decide)
  cases hcalls with
  | exprTree hin hinner => exact .exprTree (htree.mp hin) (hexpr.mp hinner)
  | programTree hin hout => exact .programTree (htree.mp hin) (hout ∘ hexpr.mpr)
  | value hout hin => exact .value (hout ∘ htree.mpr) (hexpr.mp hin)
  | run hout hother hrun hlists =>
      simp only [hsame .dumpVars (by decide)]
      exact .run (hout ∘ htree.mpr) (hother ∘ hexpr.mpr) hrun hlists

end Calls

/-! ## What a process does -/

/-- How a process ends: with success and the text behind the bytes printed before, or with a
failure and nothing but a report on the source. -/
def Completion.ofOutcome (source : String) (printed : ByteArray) :
    Except Diagnostic String → Completion
  | .ok text => ⟨0, printed ++ text.toUTF8, ""⟩
  | .error diagnostic => ⟨1, printed, diagnostic.writeReport source true⟩

/-- A source is given as a text, or as the content of a file. -/
def Loads (readFile : String → Except ReadFailure ByteArray) (flags : List Flag)
    (text source : String) : Prop :=
  if .inlineSource ∈ flags then text = source else readFile text = .ok source.toUTF8

section Process

variable {budget : Nat} {flags : List Flag} {text source : String} {completion : Completion}
  {options : Options}

theorem showTree_of_expr (hexpr : options.expr = true) :
    options.showTree source = .ofOutcome source .empty
      (told (fun tree => tree.outline.page 0 ++ "\n") (·.diagnostic source)
        (Expr.parse source)) := by
  simp only [Options.showTree, hexpr, if_true]
  cases Expr.parse source with
  | error error => rfl
  | ok tree => exact congrArg (Completion.mk 0 · "") ByteArray.empty_append.symm

theorem showTree_of_not_expr (hexpr : options.expr = false) :
    options.showTree source = .ofOutcome source .empty
      (told (fun tree => tree.outline.page 0 ++ "\n") (·.diagnostic source)
        (Program.parse source)) := by
  simp only [Options.showTree, hexpr, Bool.false_eq_true, if_false]
  cases Program.parse source with
  | error error => rfl
  | ok tree => exact congrArg (Completion.mk 0 · "") ByteArray.empty_append.symm

theorem showValue_eq (source : String) :
    Options.showValue source = .ofOutcome source .empty
      (told (fun value => value.render ++ "\n") (·.diagnostic source)
        ((State.fresh .unlimited).interpretExpr source)) := by
  rw [Options.showValue]
  cases (State.fresh .unlimited).interpretExpr source with
  | error error => rfl
  | ok value => exact congrArg (Completion.mk 0 · "") ByteArray.empty_append.symm

theorem runProgram_eq {result : Except Error Unit} {final : State}
    {bindings : List (String × Value)} (hdump : options.dumpVars = decide (.dumpVars ∈ flags))
    (hrun : (State.fresh .unlimited).interpret budget source = some (result, final))
    (hlists : final.env.Lists bindings) :
    options.runProgram budget source = some (.ofOutcome source final.sink.written
      (told (fun _ => if .dumpVars ∈ flags then dumpText bindings else "")
        (·.diagnostic source) result)) := by
  rw [Options.runProgram, hrun, hdump, hlists.unique final.env.lists_toList]
  rcases result with error | ⟨⟩
  · rfl
  · by_cases hmem : Flag.dumpVars ∈ flags
    · simp [hmem, told, Completion.ofOutcome, Completion.success, dumpText, Environment.lines,
        List.map_map, Function.comp_def]
    · simp [hmem, told, Completion.ofOutcome, Completion.success]

theorem exists_of_runProgram (hrun : options.runProgram budget source = some completion) :
    ∃ result final, (State.fresh .unlimited).interpret budget source = some (result, final) := by
  rw [Options.runProgram] at hrun
  rcases hinterpret : (State.fresh .unlimited).interpret budget source with _ | ⟨result, final⟩
  · rw [hinterpret] at hrun
    cases hrun
  · exact ⟨result, final, rfl⟩

/-- What the language does with a source is what the options that flags stand for do with it. -/
theorem Calls.runSource_eq {printed : ByteArray} {outcome : Except Diagnostic String}
    (hcalls : Calls budget flags source printed outcome) :
    (Options.ofFlags flags text).runSource budget source =
      some (.ofOutcome source printed outcome) := by
  rw [Options.runSource]
  cases hcalls with
  | exprTree htree hexpr =>
      rw [if_pos (by simpa [Options.ofFlags] using htree),
        showTree_of_expr (by simpa [Options.ofFlags] using hexpr)]
  | programTree htree hexpr =>
      rw [if_pos (by simpa [Options.ofFlags] using htree),
        showTree_of_not_expr (by simpa [Options.ofFlags] using hexpr)]
  | value htree hexpr =>
      rw [if_neg (by simpa [Options.ofFlags] using htree),
        if_pos (by simpa [Options.ofFlags] using hexpr), showValue_eq]
  | run htree hexpr hrun hlists =>
      rw [if_neg (by simpa [Options.ofFlags] using htree),
        if_neg (by simpa [Options.ofFlags] using hexpr), runProgram_eq rfl hrun hlists]

theorem exists_calls_of_runSource
    (hrun : (Options.ofFlags flags text).runSource budget source = some completion) :
    ∃ printed outcome, Calls budget flags source printed outcome := by
  by_cases htree : .tree ∈ flags <;> by_cases hexpr : .expr ∈ flags
  · exact ⟨_, _, .exprTree htree hexpr⟩
  · exact ⟨_, _, .programTree htree hexpr⟩
  · exact ⟨_, _, .value htree hexpr⟩
  · rw [Options.runSource, if_neg (by simpa [Options.ofFlags] using htree),
      if_neg (by simpa [Options.ofFlags] using hexpr)] at hrun
    obtain ⟨result, final, hinterpret⟩ := exists_of_runProgram hrun
    exact ⟨_, _, .run htree hexpr hinterpret final.env.lists_toList⟩

theorem runSource_eq_some_iff :
    (Options.ofFlags flags text).runSource budget source = some completion ↔
      ∃ printed outcome, Calls budget flags source printed outcome ∧
        completion = .ofOutcome source printed outcome := by
  constructor
  · intro hrun
    obtain ⟨printed, outcome, hcalls⟩ := exists_calls_of_runSource hrun
    refine ⟨printed, outcome, hcalls, ?_⟩
    exact Option.some_inj.mp (hrun.symm.trans hcalls.runSource_eq)
  · rintro ⟨printed, outcome, hcalls, rfl⟩
    exact hcalls.runSource_eq

end Process

theorem decodeFile_toUTF8 (source : String) : decodeFile (.ok source.toUTF8) = .ok source := by
  have htext : String.fromUTF8? source.toUTF8 = some source := by
    rw [String.fromUTF8?, String.toUTF8_eq_toByteArray, dif_pos source.isValidUTF8]
    rfl
  simp only [decodeFile, bind, Except.bind, htext]

theorem run_eq_some_iff {arguments : List String} {flags : List Flag} {text source : String}
    {options : Options} {readFile : String → Except ReadFailure ByteArray} {budget : Nat}
    {completion : Completion} (hspells : Spells arguments flags (some text))
    (haccepted : Options.ofArguments arguments = .ok options)
    (hloads : Loads readFile flags text source) :
    run budget readFile arguments = some completion ↔
      ∃ printed outcome, Calls budget flags source printed outcome ∧
        completion = .ofOutcome source printed outcome := by
  obtain ⟨-, -, rfl⟩ := (Options.ofArguments_eq_ok_iff hspells).mp haccepted
  rw [run, haccepted]
  rw [Loads] at hloads
  simp only [Options.run]
  by_cases hinline : .inlineSource ∈ flags
  · rw [if_pos hinline] at hloads
    subst hloads
    rw [if_pos (by simpa [Options.ofFlags] using hinline)]
    exact runSource_eq_some_iff
  · rw [if_neg hinline] at hloads
    rw [if_neg (by simpa [Options.ofFlags] using hinline)]
    have hfile : readFile (Options.ofFlags flags text).source = .ok source.toUTF8 := hloads
    rw [hfile, decodeFile_toUTF8]
    exact runSource_eq_some_iff

/-- A command line with accepted flags does with its source what the language does. A run that
ends is the same under every greater budget, and the same choices lead to the same end wherever
the source is read from. -/
theorem run_fronts {arguments : List String} {flags : List Flag} {text source : String}
    {options : Options} {readFile : String → Except ReadFailure ByteArray}
    (hspells : Spells arguments flags (some text))
    (haccepted : Options.ofArguments arguments = .ok options)
    (hloads : Loads readFile flags text source) :
    (∀ budget completion, run budget readFile arguments = some completion ↔
      ∃ printed outcome, Calls budget flags source printed outcome ∧
        completion = .ofOutcome source printed outcome) ∧
    (∀ budget more completion, budget ≤ more →
      run budget readFile arguments = some completion →
        run more readFile arguments = some completion) ∧
    ∀ {otherArguments otherFlags otherText otherOptions otherFile},
      Spells otherArguments otherFlags (some otherText) →
      Options.ofArguments otherArguments = .ok otherOptions →
      Loads otherFile otherFlags otherText source → SameChoices flags otherFlags →
        ∀ budget, run budget otherFile otherArguments = run budget readFile arguments := by
  have hruns : ∀ budget completion, run budget readFile arguments = some completion ↔
      ∃ printed outcome, Calls budget flags source printed outcome ∧
        completion = .ofOutcome source printed outcome :=
    fun _ _ => run_eq_some_iff hspells haccepted hloads
  refine ⟨hruns, fun budget more completion hle hrun => ?_, ?_⟩
  · obtain ⟨printed, outcome, hcalls, hcompletion⟩ := (hruns budget completion).mp hrun
    exact (hruns more completion).mpr ⟨printed, outcome, hcalls.mono hle, hcompletion⟩
  · intro otherArguments otherFlags otherText otherOptions otherFile hother hok hload hsame budget
    refine Option.ext fun completion => ?_
    rw [hruns, run_eq_some_iff hother hok hload]
    constructor
    · rintro ⟨printed, outcome, hcalls, hcompletion⟩
      exact ⟨printed, outcome, hcalls.congr fun flag hne => (hsame flag hne).symm, hcompletion⟩
    · rintro ⟨printed, outcome, hcalls, hcompletion⟩
      exact ⟨printed, outcome, hcalls.congr hsame, hcompletion⟩

/-- The variables of a program in a file are dumped, and so they are if its text is an argument. -/
theorem run_fronts_dump :
    Spells ["program", "--dump-vars"] [.dumpVars] (some "program") ∧
      Options.ofArguments ["program", "--dump-vars"] = .ok (.ofFlags [.dumpVars] "program") ∧
      Loads (fun _ => .ok "b = 1 a = 2 p a".toUTF8) [.dumpVars] "program" "b = 1 a = 2 p a" ∧
      (∃ printed outcome, Calls 0 [.dumpVars] "b = 1 a = 2 p a" printed outcome ∧
        run 0 (fun _ => .ok "b = 1 a = 2 p a".toUTF8) ["program", "--dump-vars"] =
          some (.ofOutcome "b = 1 a = 2 p a" printed outcome)) ∧
      ∀ budget, run budget (fun _ => .error .notUtf8) ["-i", "--dump-vars", "b = 1 a = 2 p a"] =
        run budget (fun _ => .ok "b = 1 a = 2 p a".toUTF8) ["program", "--dump-vars"] := by
  have hspells : Spells ["program", "--dump-vars"] [.dumpVars] (some "program") :=
    .source (by decide) (@Spells.long .dumpVars [] [] none (by decide) .nil)
  have haccepted : Options.ofArguments ["program", "--dump-vars"] =
      .ok (.ofFlags [.dumpVars] "program") :=
    (Options.ofArguments_eq_ok_iff hspells).mpr ⟨by decide, by decide, rfl⟩
  have hloads : Loads (fun _ => .ok "b = 1 a = 2 p a".toUTF8) [.dumpVars] "program"
      "b = 1 a = 2 p a" := rfl
  have hother : Spells ["-i", "--dump-vars", "b = 1 a = 2 p a"] [.inlineSource, .dumpVars]
      (some "b = 1 a = 2 p a") :=
    @Spells.shorts ['i'] [.inlineSource] _ _ _ (by decide) (by decide) rfl
      (@Spells.long .dumpVars _ _ _ (by decide) (.source (by decide) .nil))
  have hok : Options.ofArguments ["-i", "--dump-vars", "b = 1 a = 2 p a"] =
      .ok (.ofFlags [.inlineSource, .dumpVars] "b = 1 a = 2 p a") :=
    (Options.ofArguments_eq_ok_iff hother).mpr ⟨by decide, by decide, rfl⟩
  obtain ⟨hruns, -, hsame⟩ := run_fronts hspells haccepted hloads
  obtain ⟨completion, hcompletion⟩ := Option.isSome_iff_exists.mp (by decide +kernel :
    (run 0 (fun _ => .ok "b = 1 a = 2 p a".toUTF8) ["program", "--dump-vars"]).isSome)
  obtain ⟨printed, outcome, hcalls, rfl⟩ := (hruns 0 completion).mp hcompletion
  refine ⟨hspells, haccepted, hloads, ⟨printed, outcome, hcalls, hcompletion⟩, ?_⟩
  exact hsame hother hok rfl fun flag hne => by simp [hne]

end CommandLine

end PlZero
