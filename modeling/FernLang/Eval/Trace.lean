import FernLang.Value

/-!
Events of a run and the lines that report them. A tracing level asks for all events up to it.
-/

namespace FernLang

inductive Event where
  | bound (name : String) (value : Value)
  | valued (value : Value)
  | called (name : String) (arguments : Bindings Value) (depth : Nat)
  | tested (value : Value)
  | chose (value : Value) (index : Nat)

namespace Event

def level : Event → Nat
  | .bound _ _ | .valued _ => 1
  | .called _ _ _ => 2
  | .tested _ | .chose _ _ => 3

def line : Event → Except Numeral.Error String
  | .bound name value => do return s!"let {name} = " ++ (← value.text)
  | .valued value => do return "value " ++ (← value.text)
  | .called name arguments depth => do
      let shown ← arguments.mapM fun entry => do return entry.1 ++ "=" ++ (← entry.2.text)
      return s!"call {name}(" ++ ", ".intercalate shown ++ s!") depth {depth}"
  | .tested value => do return "if condition -> " ++ (← value.text)
  | .chose value index => do return "match " ++ (← value.text) ++ s!" -> arm {index}"

end Event

/-- The text of traced lines; a value in a line may bring line ends of its own. -/
def traceText (lines : Array String) : String := String.join (lines.toList.map (· ++ "\n"))

end FernLang
