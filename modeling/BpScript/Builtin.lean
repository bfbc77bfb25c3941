/-!
# Built-in functions

The functions every script starts with, and the methods of texts, lists, objects and functions.
Here are their names and parameters; what they do is in `BpScript.Builtin.Call`.

* `Global.all`, `TextMethod.all`, … — the functions, in the order they are listed.
* `name`, `params` — how each is called.
-/

namespace BpScript

/-- A parameter of a built-in function. -/
structure BuiltinParam where
  name : String
  optional : Bool
  deriving DecidableEq, Repr, Inhabited

/-- A parameter every call has to give. -/
def BuiltinParam.required (name : String) : BuiltinParam := ⟨name, false⟩

/-- A parameter a call may leave out. -/
def BuiltinParam.omittable (name : String) : BuiltinParam := ⟨name, true⟩

open BuiltinParam (required omittable)

/-- The functions bound in every fresh root scope. -/
inductive Global where
  | print
  | input
  | inputInt
  | clear
  | isNumber
  | isString
  | isBoolean
  | isNull
  | isList
  | isObject
  | isFunction
  | toText
  | toNumber
  | toBoolean
  | len
  | readFile
  | writeFile
  | deleteFile
  deriving DecidableEq, Repr, Inhabited

namespace Global

/-- All built-in functions, in the order they are listed. -/
def all : List Global :=
  [print, input, inputInt, clear, isNumber, isString, isBoolean, isNull, isList, isObject,
   isFunction, toText, toNumber, toBoolean, len, readFile, writeFile, deleteFile]

/-- The name a function is called by. -/
def name : Global → String
  | print => "print"
  | input => "input"
  | inputInt => "input_int"
  | clear => "clear"
  | isNumber => "is_number"
  | isString => "is_string"
  | isBoolean => "is_boolean"
  | isNull => "is_null"
  | isList => "is_list"
  | isObject => "is_object"
  | isFunction => "is_function"
  | toText => "String"
  | toNumber => "Number"
  | toBoolean => "Boolean"
  | len => "len"
  | readFile => "read_file"
  | writeFile => "write_file"
  | deleteFile => "delete_file"

/-- The parameters of a function. -/
def params : Global → List BuiltinParam
  | input | inputInt => [omittable "prompt"]
  | clear => []
  | readFile | deleteFile => [required "path"]
  | writeFile => [required "path", required "text"]
  | _ => [required "value"]

end Global

/-- The methods of texts. -/
inductive TextMethod where
  | len
  | upper
  | lower
  | trim
  | split
  | contains
  | replace
  deriving DecidableEq, Repr, Inhabited

namespace TextMethod

/-- All methods of texts, in the order they are listed. -/
def all : List TextMethod := [len, upper, lower, trim, split, contains, replace]

/-- The name a method is called by. -/
def name : TextMethod → String
  | len => "len"
  | upper => "upper"
  | lower => "lower"
  | trim => "trim"
  | split => "split"
  | contains => "contains"
  | replace => "replace"

/-- The parameters of a method. -/
def params : TextMethod → List BuiltinParam
  | split => [omittable "separator"]
  | contains => [required "text"]
  | replace => [required "from", required "to"]
  | _ => []

end TextMethod

/-- The methods of lists. -/
inductive ListMethod where
  | len
  | append
  | pop
  | extend
  | contains
  | join
  | get
  deriving DecidableEq, Repr, Inhabited

namespace ListMethod

/-- All methods of lists, in the order they are listed. -/
def all : List ListMethod := [len, append, pop, extend, contains, join, get]

/-- The name a method is called by. -/
def name : ListMethod → String
  | len => "len"
  | append => "append"
  | pop => "pop"
  | extend => "extend"
  | contains => "contains"
  | join => "join"
  | get => "get"

/-- The parameters of a method. -/
def params : ListMethod → List BuiltinParam
  | len => []
  | append | contains => [required "value"]
  | pop => [omittable "index"]
  | extend => [required "list"]
  | join => [omittable "separator"]
  | get => [required "index"]

end ListMethod

/-- The methods of objects. -/
inductive ObjectMethod where
  | keys
  | values
  | has
  | remove
  deriving DecidableEq, Repr, Inhabited

namespace ObjectMethod

/-- All methods of objects, in the order they are listed. -/
def all : List ObjectMethod := [keys, values, has, remove]

/-- The name a method is called by. -/
def name : ObjectMethod → String
  | keys => "keys"
  | values => "values"
  | has => "has"
  | remove => "remove"

/-- The parameters of a method. -/
def params : ObjectMethod → List BuiltinParam
  | has | remove => [required "key"]
  | _ => []

end ObjectMethod

/-- The methods of functions. -/
inductive FunctionMethod where
  | name
  | arity
  deriving DecidableEq, Repr, Inhabited

namespace FunctionMethod

/-- All methods of functions, in the order they are listed. -/
def all : List FunctionMethod := [.name, .arity]

/-- The method's own name. -/
def label : FunctionMethod → String
  | .name => "name"
  | .arity => "arity"

end FunctionMethod

end BpScript
