/-! The words and signs that a tree keeps: types and operators, each with its one spelling. -/
namespace BlockScript

inductive TypeName
  | int
  | unsignedInt
  | float
  | string
  | systemHandler
deriving DecidableEq

namespace TypeName

def all : List TypeName := [int, unsignedInt, float, string, systemHandler]

def spelling : TypeName → String
  | int => "int"
  | unsignedInt => "unsigned_int"
  | float => "float"
  | string => "string"
  | systemHandler => "system_handler"

def ofSpelling? (text : String) : Option TypeName := all.find? fun type => type.spelling == text

theorem ofSpelling?_spelling (type : TypeName) : ofSpelling? type.spelling = some type := by
  cases type <;> decide

end TypeName

inductive Arithmetic
  | plus
  | minus
  | times
  | divide
deriving DecidableEq

namespace Arithmetic

def all : List Arithmetic := [plus, minus, times, divide]

def spelling : Arithmetic → String
  | plus => "+"
  | minus => "-"
  | times => "*"
  | divide => "/"

def ofSpelling? (text : String) : Option Arithmetic := all.find? fun sign => sign.spelling == text

theorem ofSpelling?_spelling (sign : Arithmetic) : ofSpelling? sign.spelling = some sign := by
  cases sign <;> decide

end Arithmetic

inductive Relation
  | equal
  | notEqual
  | less
  | lessOrEqual
  | greater
  | greaterOrEqual
deriving DecidableEq

namespace Relation

def all : List Relation := [equal, notEqual, less, lessOrEqual, greater, greaterOrEqual]

def spelling : Relation → String
  | equal => "=="
  | notEqual => "!="
  | less => "<"
  | lessOrEqual => "<="
  | greater => ">"
  | greaterOrEqual => ">="

def ofSpelling? (text : String) : Option Relation := all.find? fun sign => sign.spelling == text

theorem ofSpelling?_spelling (sign : Relation) : ofSpelling? sign.spelling = some sign := by
  cases sign <;> decide

end Relation

inductive Test
  | both
  | either
  | compare (relation : Relation)
deriving DecidableEq

def Test.spelling : Test → String
  | both => "and"
  | either => "or"
  | compare relation => relation.spelling

end BlockScript
