import RegisterMap.Model.Choice

/-!
# Access and protection

The access rights of registers and fields, and the privilege that an access
needs.  Their words may be written in either case.
-/

namespace RegisterMap.Model

open RegisterMap.Text

inductive Access where
  | readOnly
  | writeOnly
  | readWrite
  | writeOnce
  | readWriteOnce
  deriving DecidableEq, Repr

namespace Access

def all : List Access := [readOnly, writeOnly, readWrite, writeOnce, readWriteOnce]

def word : Access → String
  | readOnly => "read-only"
  | writeOnly => "write-only"
  | readWrite => "read-write"
  | writeOnce => "writeOnce"
  | readWriteOnce => "read-writeOnce"

def ofWord? (s : String) : Option Access :=
  all.find? fun access => sameWord access.word s

def ofLiteral (value : Literal) : Except InvalidChoice Access :=
  chooseWord "Access" ofWord? value

end Access

/-- The privilege that an access to an address region needs. -/
inductive Protection where
  | secure
  | nonSecure
  | privileged
  deriving DecidableEq, Repr

namespace Protection

def all : List Protection := [secure, nonSecure, privileged]

def word : Protection → String
  | secure => "s"
  | nonSecure => "n"
  | privileged => "p"

def ofWord? (s : String) : Option Protection :=
  all.find? fun protection => sameWord protection.word s

def ofLiteral (value : Literal) : Except InvalidChoice Protection :=
  chooseWord "Protection" ofWord? value

end Protection

end RegisterMap.Model
