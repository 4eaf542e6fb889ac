import EventBus.Lib.FormatString
import EventBus.Lib.Joined
import EventBus.Model.Core

/-!
# Subject templates

`#[derive(Event)]` makes the subject of an event from a template with placeholders in it.
`buildSubjectExpression` is the function of the macro that reads the template and emits the
expression that `subject()` evaluates: `"...".to_owned()` or `format!("...", self.a, ...)`.

Reading an identifier is up to the `syn` crate; the functions below are given it.
-/

set_option autoImplicit false

namespace EventBus.Model

open EventBus.Lib (splitOnce length_of_splitOnce)

/-- `char::is_whitespace`. -/
def isWhitespace (c : Char) : Bool :=
  let n := c.toNat
  (decide (9 ≤ n) && decide (n ≤ 13)) || (decide (0x2000 ≤ n) && decide (n ≤ 0x200a)) ||
    [0x20, 0x85, 0xa0, 0x1680, 0x2028, 0x2029, 0x202f, 0x205f, 0x3000].contains n

/-- `str::trim`. -/
def trimText (s : List Char) : List Char :=
  ((s.dropWhile isWhitespace).reverse.dropWhile isWhitespace).reverse

/-- The expression that is emitted for a subject. -/
inductive SubjectExpression where
  | toOwned (formatString : String)
  | format (formatString : String) (interpolationArguments : List String)
  deriving DecidableEq

/-- What the expression evaluates to where the fields print as `display` says; `none` if it
does not compile. -/
def SubjectExpression.eval (display : String → String) : SubjectExpression → Option String
  | .toOwned formatString => some formatString
  | .format formatString interpolationArguments =>
    (EventBus.Lib.FormatString.format (fun field => (display field).toList) formatString.toList
      interpolationArguments).map String.ofList

section

variable (parseIdent : String → Option String) (fieldIdents : List String)

/-- The field that a placeholder names.
SRC: event.rs:186-212 -/
def interpolatedField (inside : List Char) : Except String String :=
  let interpolation := trimText inside
  if "self.".toList.isPrefixOf interpolation then
    let fieldName := String.ofList (interpolation.drop 5)
    match parseIdent fieldName with
    | none => .error ("invalid field name in subject template: `" ++ fieldName ++ "`")
    | some fieldIdent =>
      if fieldIdent ∈ fieldIdents then .ok fieldIdent
      else .error ("unknown field in subject template: `" ++ fieldName ++ "`")
  else
    .error ("subject interpolations must use `\x7bself.field\x7d` form, got `\x7b" ++
      String.ofList interpolation ++ "\x7d`")

/-- The loop over the template, with what it has emitted so far.
SRC: event.rs:176-216 -/
def scanTemplate (rest formatString : List Char) (interpolationArguments : List String) :
    Except String (List Char × List String) :=
  match _hopen : splitOnce '{' rest with
  | none => .ok (formatString ++ rest, interpolationArguments)
  | some (text, afterOpen) =>
    match _hclose : splitOnce '}' afterOpen with
    | none => .error "unclosed `\x7b` in subject template"
    | some (inside, afterClose) =>
      match interpolatedField parseIdent fieldIdents inside with
      | .error e => .error e
      | .ok fieldIdent =>
        scanTemplate afterClose (formatString ++ text ++ "\x7b\x7d".toList)
          (interpolationArguments ++ [fieldIdent])
termination_by rest.length
decreasing_by
  have hshorter := length_of_splitOnce _hopen
  have hshorter' := length_of_splitOnce _hclose
  omega

/-- SRC: event.rs:161-223 -/
def buildSubjectExpression (subjectTemplate : String) : Except String SubjectExpression :=
  match scanTemplate parseIdent fieldIdents subjectTemplate.toList [] [] with
  | .error e => .error e
  | .ok (formatString, interpolationArguments) =>
    if interpolationArguments = [] then .ok (.toOwned (String.ofList formatString))
    else .ok (.format (String.ofList formatString) interpolationArguments)

end

/-- Identifiers of letters, digits and underscores, which are read as they are, for
runs on concrete templates. -/
def plainIdent (name : String) : Option String :=
  match name.toList with
  | [] => none
  | c :: rest =>
    if (c.isAlpha || c == '_') && rest.all fun d => d.isAlphanum || d == '_' then some name
    else none

end EventBus.Model
