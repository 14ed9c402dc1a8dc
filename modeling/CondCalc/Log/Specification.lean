import CondCalc.Log.Filter
import CondCalc.Text.WhiteSpace

/-! A log filter as a text: directives, separated by commas, and after a `/` a pattern that occurs
in every logged message. A directive is a level, a target, or both with `=` between them. What
cannot be read is left out, with a complaint. -/
namespace CondCalc

/-- A level for the targets that start with the given text. -/
structure Directive where
  target : String
  level : LogLevel
deriving DecidableEq

def Directive.ofText (text : String) : Except String Directive :=
  match text.splitOn "=" with
  | [word] =>
    match LogLevel.ofName? word with
    | some level => .ok ⟨"", level⟩
    | none => .ok ⟨word, .trace⟩
  | [target, name] =>
    let name := trim name
    if name.isEmpty then
      .ok ⟨target, .trace⟩
    else
      match LogLevel.ofName? name with
      | some level => .ok ⟨target, level⟩
      | none => .error name
  | _ => .error text

namespace LogFilter

def directiveTexts (list : String) : List String :=
  ((list.splitOn ",").map trim).filter (· ≠ "")

/-- The better of two directives that fit: the one with the longer target, and of equal ones the
second. -/
def better (d e : Directive) : Directive :=
  if e.target.length < d.target.length then d else e

def programLevel (directives : List Directive) : LogLevel :=
  match directives.filter fun d => d.target.toList.isPrefixOf programName.toList with
  | [] => if directives.isEmpty then .error else .off
  | d :: ds => (ds.foldl better d).level

def ofList (list : String) (occurs : String → Bool) (complaints : List String) : LogFilter :=
  let results := (directiveTexts list).map Directive.ofText
  let level := programLevel (results.filterMap Except.toOption)
  let wrong := results.filterMap fun
    | .ok _ => none
    | .error wrong => some ("invalid logging spec '" ++ wrong ++ "', ignoring it")
  ⟨fun l message => l.rank ≤ level.rank && occurs message, wrong ++ complaints⟩

/-- The filter that a text specifies, if `pattern?` tells where patterns occur. -/
def read (pattern? : String → Option (String → Bool)) (text : String) : LogFilter :=
  match text.splitOn "/" with
  | [list] => ofList list (fun _ => true) []
  | [list, pattern] =>
    match pattern? pattern with
    | some occurs => ofList list occurs []
    | none => ofList list (fun _ => true) ["invalid regex filter '" ++ pattern ++ "'"]
  | _ =>
    ofList "" (fun _ => true) ["invalid logging spec '" ++ text ++ "', ignoring it (too many '/'s)"]

/-- A pattern stands for itself if no character in it has a meaning of its own. -/
def plainPattern? (pattern : String) : Option (String → Bool) :=
  if pattern.toList.any "\\.+*?()|[\x7b^$".toList.contains then
    none
  else
    some fun message => message.contains pattern

def ofText : String → LogFilter :=
  read plainPattern?

end LogFilter

end CondCalc
