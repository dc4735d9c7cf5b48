import Mathlib
import FernLang.Command

/-!
What surrounds a task: the arguments that ask for it and the folder it leaves. A file that is written
lies where it was written and changes nothing else, as long as its folder was there.
-/

namespace FernLang

namespace Options

def IsWord (text : String) : Prop := ∃ c more, text.toList = c :: more ∧ c ≠ '-'

/-- One dash and letters for more detail, one more than `count`. -/
def verbose (count : Nat) : String := String.ofList ('-' :: 'v' :: List.replicate count 'v')

def detail (counts : List Nat) : Nat := (counts.map (· + 1)).sum

theorem IsWord.classify {text : String} (word : IsWord text) : classify text = .ok (.word text) := by
  obtain ⟨c, more, same, other⟩ := word
  rw [Options.classify, same]
  split
  · rename_i begins
    cases begins
    exact absurd rfl other
  · rename_i begins
    cases begins
    exact absurd rfl other
  · rfl

theorem IsWord.ne_dashes {text : String} (word : IsWord text) : text ≠ "--" := by
  obtain ⟨c, more, same, other⟩ := word
  rintro rfl
  cases same
  exact other rfl

theorem shortRow_verbose (count : Nat) :
    shortRow .verbose (List.replicate count 'v') = .ok (List.replicate count .verbose, .bare .verbose) := by
  induction count with
  | zero => rfl
  | succ count ih =>
      have named : Flag.named? (String.ofList ['-', 'v']) = some .verbose := by decide
      rw [List.replicate_succ, shortRow, named]
      dsimp only [Flag.takesValue]
      rw [ih]
      rfl

theorem classify_verbose (count : Nat) :
    classify (verbose count) =
      .ok (.option (.ok (List.replicate count .verbose, .bare .verbose))) := by
  have named : Flag.named? (String.ofList ['-', 'v']) = some .verbose := by decide
  rw [classify, verbose, String.toList_ofList]
  change Except.ok (classifyShort 'v' (List.replicate count 'v')) = _
  rw [classifyShort, named]
  cases count with
  | zero => rfl
  | succ count =>
      rw [← shortRow_verbose]
      rfl

theorem classifyAll_verbose (counts : List Nat) {rest : List String} {arguments : List Argument}
    (known : classifyAll rest = .ok arguments) :
    classifyAll (counts.map verbose ++ rest) = .ok (counts.map (fun count =>
      .option (.ok (List.replicate count .verbose, .bare .verbose))) ++ arguments) := by
  induction counts with
  | nil => exact known
  | cons count counts ih =>
      have single : verbose count ≠ "--" := by
        intro same
        have texts := congrArg String.toList same
        rw [verbose, String.toList_ofList] at texts
        cases texts
      rw [List.map_cons, List.cons_append, classifyAll, if_neg single, classify_verbose, ih]
      rfl

def Known.detailed (count : Nat) (known : Known) : Known :=
  { known with options.verbosity := known.options.verbosity + count }

theorem noteAll_verbose (count : Nat) (known : Known) :
    known.noteAll (List.replicate count .verbose) = .ok (known.detailed count) := by
  induction count generalizing known with
  | zero => rfl
  | succ count ih =>
      have step : known.noteAll (List.replicate (count + 1) .verbose) =
          (known.detailed 1).noteAll (List.replicate count .verbose) := rfl
      rw [step, ih, Known.detailed, Known.detailed, Known.detailed]
      simp only [Nat.add_assoc, Nat.add_comm 1 count]

theorem consume_verbose (counts : List Nat) (arguments : List Argument) (known : Known) :
    consume (counts.map (fun count =>
      .option (.ok (List.replicate count .verbose, .bare .verbose))) ++ arguments) known =
        consume arguments (known.detailed (detail counts)) := by
  induction counts generalizing known with
  | nil => rfl
  | cons count counts ih =>
      have step (rest : List Argument) : consume
          (.option (.ok (List.replicate count .verbose, .bare .verbose)) :: rest) known =
            (do consume rest (← (← known.noteAll (List.replicate count .verbose)).note .verbose)) := by
        rw [consume.eq_def]
        rfl
      have sum : detail (count :: counts) = count + 1 + detail counts := List.sum_cons
      rw [List.map_cons, List.cons_append, step, noteAll_verbose]
      refine (ih (known.detailed (count + 1))).trans ?_
      rw [Known.detailed, Known.detailed, Known.detailed, sum]
      simp only [Nat.add_assoc]

theorem parse_verbose (counts : List Nat) {rest : List String} {arguments : List Argument}
    {known : Known} (classified : classifyAll rest = .ok arguments)
    (consumed : consume arguments (Known.start.detailed (detail counts)) = .ok known)
    (all : known.extras = []) : parse (counts.map verbose ++ rest) = .ok known.options := by
  rw [parse, classifyAll_verbose counts classified]
  dsimp only
  rw [consume_verbose, consumed]
  simp only [bind, Except.bind, all, List.isEmpty_nil, if_true]

theorem parse_program (counts : List Nat) {name : String} (word : IsWord name) :
    parse (counts.map verbose ++ [name]) = .ok ⟨detail counts, none, none, some name⟩ := by
  have classified : classifyAll [name] = .ok [.word name] := by
    rw [classifyAll, if_neg word.ne_dashes, word.classify]
    rfl
  have known : parse (counts.map verbose ++ [name]) = .ok ⟨0 + detail counts, none, none, some name⟩ :=
    parse_verbose counts classified rfl rfl
  rwa [Nat.zero_add] at known

theorem consume_value (flag : Flag) (value : String) (known : Known) (takes : flag.takesValue = true) :
    consume [.option (.ok ([], .bare flag)), .word value] known = known.set flag value := by
  rw [consume.eq_def]
  dsimp only
  rw [if_pos takes]
  change (known.set flag value >>= fun known => consume [] known) = _
  cases known.set flag value with
  | error stop => rfl
  | ok known => rfl

theorem parse_value (counts : List Nat) {option value : String} {flag : Flag} {known : Known}
    (word : IsWord value) (named : classify option = .ok (.option (.ok ([], .bare flag))))
    (single : option ≠ "--") (takes : flag.takesValue = true)
    (noted : (Known.start.detailed (detail counts)).set flag value = .ok known)
    (all : known.extras = []) :
    parse (counts.map verbose ++ [option, value]) = .ok known.options := by
  have classified : classifyAll [option, value] =
      .ok [.option (.ok ([], .bare flag)), .word value] := by
    rw [classifyAll, if_neg single, named, classifyAll, if_neg word.ne_dashes, word.classify]
    rfl
  have consumed := consume_value flag value (Known.start.detailed (detail counts)) takes
  exact parse_verbose counts classified (consumed.trans noted) all

theorem parse_ast (counts : List Nat) {name : String} (word : IsWord name) :
    parse (counts.map verbose ++ ["--ast", name]) = .ok ⟨detail counts, none, some name, none⟩ := by
  have noted : (Known.start.detailed (detail counts)).set .ast name =
      .ok ⟨⟨0 + detail counts, none, some name, none⟩, false, []⟩ := by
    rw [Known.set, if_neg word.ne_dashes]
    rfl
  have named : classify "--ast" = .ok (.option (.ok ([], .bare .ast))) := by cbv
  have known := parse_value counts word named (by decide) rfl noted rfl
  rwa [Nat.zero_add] at known

theorem parse_emitAst {name : String} (word : IsWord name) :
    parse ["--emit-ast", name] = .ok ⟨0, some name, none, none⟩ := by
  have noted : (Known.start.detailed (detail [])).set .emitAst name =
      .ok ⟨⟨0, some name, none, none⟩, false, []⟩ := by
    rw [Known.set, if_neg word.ne_dashes]
    rfl
  have named : classify "--emit-ast" = .ok (.option (.ok ([], .bare .emitAst))) := by cbv
  exact parse_value [] word named (by decide) rfl noted rfl

theorem IsWord.append {text : String} (word : IsWord text) (ending : String) :
    IsWord (text ++ ending) := by
  obtain ⟨c, more, same, other⟩ := word
  exact ⟨c, more ++ ending.toList, by rw [String.toList_append, same, List.cons_append], other⟩

end Options

namespace Command

open Options (IsWord verbose detail)

theorem path?_word {name : String} (word : IsWord name) : path? (some name) = some (.ofText name) := by
  obtain ⟨c, more, same, _⟩ := word
  have filled : name.isEmpty = false := by
    rw [String.isEmpty_eq_false_iff]
    rintro rfl
    cases same
  rw [path?, Option.filter, filled]
  rfl

section

variable (limits : Limits) (files : Files) (input : String) (counts : List Nat) {name : String}

theorem run_program (word : IsWord name) : run limits files input (counts.map verbose ++ [name]) =
    runSource limits files (detail counts) (.ofText name) := by
  rw [run, Options.parse_program counts word]
  dsimp only
  rw [perform, task, path?_word word]
  rfl

theorem run_ast (word : IsWord name) :
    run limits files input (counts.map verbose ++ ["--ast", name]) =
      runTree limits files (detail counts) (.ofText name) := by
  rw [run, Options.parse_ast counts word]
  dsimp only
  rw [perform, task, path?_word word]
  rfl

theorem run_emitAst (word : IsWord name) : run limits files input ["--emit-ast", name] =
    emitTree limits files (.ofText name) := by
  rw [run, Options.parse_emitAst word]
  dsimp only
  rw [perform, task, path?_word word]

end

end Command

/-! Paths and folders. -/

namespace Text

theorem pieces_single {sign : Char} {text : List Char} (free : sign ∉ text) :
    pieces sign text = [text] := by
  induction text with
  | nil => rfl
  | cons c text ih =>
      rw [List.mem_cons, not_or] at free
      rw [pieces, if_neg (Ne.symm free.1), ih free.2]

theorem pieces_append (sign : Char) (text : List Char) :
    ∃ front last, ∀ more, sign ∉ more → pieces sign (text ++ more) = front ++ [last ++ more] := by
  induction text with
  | nil => exact ⟨[], [], fun more free => pieces_single free⟩
  | cons c text ih =>
      obtain ⟨front, last, each⟩ := ih
      by_cases mark : c = sign
      · refine ⟨[] :: front, last, fun more free => ?_⟩
        rw [List.cons_append, pieces, if_pos mark, each more free, List.cons_append]
      · cases front with
        | nil =>
            refine ⟨[], c :: last, fun more free => ?_⟩
            rw [List.cons_append, pieces, if_neg mark, each more free]
            rfl
        | cons piece front =>
            refine ⟨(c :: piece) :: front, last, fun more free => ?_⟩
            rw [List.cons_append, pieces, if_neg mark, each more free]
            rfl

end Text

namespace FilePath

/-- A text whose last part is a name: it ends neither in a slash nor in a dot. -/
def EndsInName (text : String) : Prop := ∃ front c, text.toList = front ++ [c] ∧ c ≠ '/' ∧ c ≠ '.'

theorem rootOf_append {front : List Char} {c : Char} (name : c ≠ '/') (more : List Char) :
    rootOf (front ++ c :: more) = rootOf (front ++ [c]) := by
  have same (rest : List Char) : (front ++ c :: rest).takeWhile (· == '/') =
      front.takeWhile (· == '/') := by
    rw [List.takeWhile_append]
    split
    · rename_i whole
      have none : (c :: rest).takeWhile (· == '/') = [] := by
        rw [List.takeWhile_cons, if_neg (by simpa using name)]
      rw [none, List.append_nil]
      exact ((List.takeWhile_prefix _).eq_of_length whole).symm
    · rfl
  rw [rootOf, rootOf, same more, same []]

theorem ofText_append {text : String} (named : EndsInName text) {ending : String}
    (free : '/' ∉ ending.toList) :
    (ofText text).names ≠ [] ∧ ofText (text ++ ending) = (ofText text).append ending := by
  obtain ⟨start, c, same, slash, dot⟩ := named
  obtain ⟨front, last, each⟩ := Text.pieces_append '/' start
  let kept := fun name : String => decide (name ≠ "" ∧ name ≠ ".")
  -- A last piece that goes on after such a character is neither empty nor a dot.
  have names (more : List Char) (free : '/' ∉ more) :
      ((Text.pieces '/' (start ++ c :: more)).map String.ofList).filter kept =
        (front.map String.ofList).filter kept ++ [String.ofList (last ++ c :: more)] := by
    have proper : kept (String.ofList (last ++ c :: more)) = true := by
      refine decide_eq_true ⟨fun empty => ?_, fun single => ?_⟩
      · have chars := congrArg String.toList empty
        rw [String.toList_ofList] at chars
        cases List.append_eq_nil_iff.1 chars |>.2
      · have chars := congrArg String.toList single
        rw [String.toList_ofList] at chars
        rcases List.append_eq_singleton_iff.1 chars with ⟨_, found⟩ | ⟨_, found⟩
        · exact dot (List.cons_eq_cons.1 found).1
        · cases found
    have apart : '/' ∉ c :: more := by simpa using ⟨Ne.symm slash, free⟩
    rw [each _ apart, List.map_append, List.filter_append]
    exact congrArg _ (List.filter_cons_of_pos proper)
  have short := names [] List.not_mem_nil
  have long := names ending.toList free
  rw [← same] at short
  have whole : (text ++ ending).toList = start ++ c :: ending.toList := by
    rw [String.toList_append, same, List.append_assoc, List.singleton_append]
  rw [← whole] at long
  have joined : String.ofList (last ++ c :: ending.toList) = String.ofList (last ++ [c]) ++ ending := by
    rw [← String.toList_inj, String.toList_append, String.toList_ofList, String.toList_ofList,
      List.append_assoc, List.singleton_append]
  refine ⟨fun none => ?_, ?_⟩
  · exact absurd (short.symm.trans none) (by simp)
  · rw [append, ofText, ofText]
    dsimp only
    rw [short, long, List.dropLast_concat, List.getLast?_concat, whole, same, rootOf_append slash, joined]
    rfl

end FilePath

namespace Folder

variable {folder : Folder}

theorem hasFolder_iff {names : List String} : folder.hasFolder names = true ↔
    names = [] ∨ ∃ file ∈ folder.files, names <+: file.1 ∧ names ≠ file.1 := by
  rw [hasFolder, Bool.or_eq_true, List.isEmpty_iff, List.any_eq_true]
  simp only [Bool.and_eq_true, List.isPrefixOf_iff_prefix, bne_iff_ne]

theorem hasFolder_of_prefix {names more : List String} (start : names <+: more)
    (has : folder.hasFolder more = true) : folder.hasFolder names = true := by
  rw [hasFolder_iff] at has ⊢
  rcases has with rfl | ⟨file, member, below, apart⟩
  · exact .inl (List.prefix_nil.1 start)
  · refine .inr ⟨file, member, start.trans below, ?_⟩
    rintro rfl
    exact apart (below.eq_of_length_le start.length_le)

def placed (folder : Folder) (names : List String) (bytes : ByteArray) : Folder :=
  ⟨folder.files.filter (·.1 != names) ++ [(names, bytes)]⟩

theorem file?_placed (names other : List String) (bytes : ByteArray) :
    (folder.placed names bytes).file? other =
      if other = names then some bytes else folder.file? other := by
  rw [file?, placed, List.find?_append, List.find?_filter]
  by_cases same : other = names
  · have none : folder.files.find? (fun file => decide ((file.1 != names) = true ∧
        (file.1 == other) = true)) = none := by
      rw [List.find?_eq_none]
      intro file _
      simp [same]
    rw [none, if_pos same]
    simp [same]
  · have found : (fun file : List String × ByteArray => decide ((file.1 != names) = true ∧
        (file.1 == other) = true)) = fun file => file.1 == other := by
      funext file
      by_cases here : file.1 = other
      · simp [here, same]
      · simp [here]
    rw [found, if_neg same, file?]
    simp [Ne.symm same]

section

variable {front : List String} (last : String) (bytes : ByteArray)

/-- A file in a folder that is there brings no folder with it and hides none. -/
theorem hasFolder_placed (has : folder.hasFolder front = true) (names : List String) :
    (folder.placed (front ++ [last]) bytes).hasFolder names = folder.hasFolder names := by
  rw [Bool.eq_iff_iff]
  refine ⟨fun lies => ?_, fun lies => ?_⟩
  · rcases hasFolder_iff.1 lies with rfl | ⟨file, member, below, apart⟩
    · rfl
    · rcases List.mem_append.1 member with kept | new
      · exact hasFolder_iff.2 (.inr ⟨file, (List.mem_filter.1 kept).1, below, apart⟩)
      · rw [List.mem_singleton.1 new] at below apart
        exact hasFolder_of_prefix ((List.prefix_concat_iff.1 below).resolve_left apart) has
  · rcases hasFolder_iff.1 lies with rfl | ⟨file, member, below, apart⟩
    · rfl
    · by_cases same : file.1 = front ++ [last]
      · rw [same] at below apart
        exact hasFolder_iff.2 (.inr ⟨_, List.mem_concat_self, below, apart⟩)
      · have differs : (file.1 != front ++ [last]) = true := bne_iff_ne.2 same
        have kept : file ∈ folder.files.filter (·.1 != front ++ [last]) :=
          List.mem_filter.2 ⟨member, differs⟩
        exact hasFolder_iff.2 (.inr ⟨file, List.mem_append_left _ kept, below, apart⟩)

theorem resolve_placed (has : folder.hasFolder front = true) (path : FilePath) :
    (folder.placed (front ++ [last]) bytes).resolve path = folder.resolve path := by
  have same : (folder.placed (front ++ [last]) bytes).step = folder.step := by
    funext place name
    cases place with
    | above => rfl
    | inside names => rw [step, step, hasFolder_placed last bytes has]
  rw [resolve, resolve, same]

theorem entry_write (has : folder.hasFolder front = true) {path : FilePath}
    (place : folder.resolve path = some (.inside (front ++ [last]))) (other : FilePath) :
    (folder.write path bytes).entry other =
      if folder.resolve other = folder.resolve path then .file bytes else folder.entry other := by
  have written : folder.write path bytes = folder.placed (front ++ [last]) bytes := by
    rw [write, place]
    rfl
  rw [written, entry, resolve_placed last bytes has, place, entry]
  cases found : folder.resolve other with
  | none => rfl
  | some reached =>
      cases reached with
      | above => rfl
      | inside names =>
          dsimp only
          rw [file?_placed, hasFolder_placed last bytes has]
          by_cases same : names = front ++ [last]
          · rw [same, if_pos rfl, if_pos rfl]
          · have apart : some (Place.inside names) ≠ some (.inside (front ++ [last])) := by
              simpa using same
            rw [if_neg same, if_neg apart]

end

/-- One more step never leads where the same step with a longer name leads. -/
theorem step_append {place : Place} {name : String} {reached : Place}
    (taken : folder.step place name = some reached) {ending : String} (long : 2 < ending.length) :
    (place = .above ∧ reached = .above) ∨ ∃ front, folder.hasFolder front = true ∧
      folder.step place (name ++ ending) = some (.inside (front ++ [name ++ ending])) ∧
        reached ≠ .inside (front ++ [name ++ ending]) := by
  cases place with
  | above =>
      rw [step] at taken
      split at taken
      · cases taken
        exact .inl ⟨rfl, rfl⟩
      · cases taken
  | inside front =>
      have longer := String.length_append name ending
      have proper : name ++ ending ≠ ".." := by
        intro same
        rw [same] at longer
        change 2 = _ at longer
        omega
      cases has : folder.hasFolder front with
      | false =>
          rw [step, has] at taken
          cases taken
      | true =>
          refine .inr ⟨front, has, ?_, ?_⟩
          · rw [step, has, if_neg (by decide), if_pos proper]
          · rintro rfl
            rw [step, has, if_neg (by decide)] at taken
            split at taken
            · have names := Place.inside.inj (Option.some.inj taken)
              have same := congrArg String.length (List.cons.inj (List.append_cancel_left names)).1
              omega
            · split at taken
              · cases taken
              · have lengths := congrArg List.length (Place.inside.inj (Option.some.inj taken))
                rw [List.length_dropLast, List.length_append, List.length_singleton] at lengths
                omega

/-- Where a file lies, its folder is there, and so is the place for a file beside it whose name goes on. -/
theorem resolve_append {path : FilePath} {bytes : ByteArray} (lies : folder.entry path = .file bytes)
    (named : path.names ≠ []) {ending : String} (long : 2 < ending.length) :
    ∃ front last, folder.hasFolder front = true ∧
      folder.resolve (path.append ending) = some (.inside (front ++ [last])) ∧
        folder.resolve path ≠ folder.resolve (path.append ending) := by
  obtain ⟨way, name, names⟩ := (List.eq_nil_or_concat path.names).resolve_left named
  rw [List.concat_eq_append] at names
  have other : (path.append ending).names = way ++ [name ++ ending] := by
    rw [FilePath.append, names, List.dropLast_concat, List.getLast?_concat]
    rfl
  have last_step (name : String) (place : Place) : (way ++ [name]).foldlM folder.step place =
      (way.foldlM folder.step place).bind fun place => folder.step place name := by
    rw [List.foldlM_append]
    simp only [List.foldlM_cons, List.foldlM_nil, bind_pure]
    rfl
  obtain ⟨reached, here, visible⟩ : ∃ reached, folder.resolve path = some reached ∧ reached ≠ .above := by
    rw [entry] at lies
    cases found : folder.resolve path with
    | none =>
        rw [found] at lies
        cases lies
    | some reached =>
        refine ⟨reached, rfl, ?_⟩
        rintro rfl
        rw [found] at lies
        cases lies
  rw [here]
  rw [resolve, names, last_step] at here
  obtain ⟨place, led, taken⟩ := Option.bind_eq_some_iff.1 here
  rcases step_append taken long with ⟨_, above⟩ | ⟨front, has, longer, apart⟩
  · exact absurd above visible
  · have beside : folder.resolve (path.append ending) = some (.inside (front ++ [name ++ ending])) := by
      rw [resolve, other, last_step]
      exact Option.bind_eq_some_iff.2 ⟨place, led, longer⟩
    refine ⟨front, name ++ ending, has, beside, ?_⟩
    rw [beside]
    exact fun same => apart (Option.some.inj same)

end Folder
end FernLang
