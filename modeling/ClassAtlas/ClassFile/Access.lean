/-!
Access flags. A bit may mean one thing on a class, another on a field and a third
on a method, so the words for a set of flags depend on what carries them.
-/
namespace ClassAtlas.ClassFile

abbrev AccessFlags := UInt16

namespace AccessFlags

/-- Whether some flag of `mask` is set. -/
def has (flags mask : AccessFlags) : Bool := flags &&& mask != 0

def isPublic (flags : AccessFlags) : Bool := has flags 0x0001

def isStatic (flags : AccessFlags) : Bool := has flags 0x0008

/-- What carries a set of flags. -/
inductive Carrier where
  | type | field | method
deriving Repr, DecidableEq

/-- The flags that have a word in source text, in bit order, with the word. -/
def words : Carrier → List (AccessFlags × String)
  | .type =>
    [(0x0001, "public"), (0x0002, "private"), (0x0004, "protected"), (0x0008, "static"),
     (0x0010, "final"), (0x0400, "abstract"), (0x0800, "strictfp"), (0x1000, "synthetic"),
     (0x2000, "annotation"), (0x4000, "enum")]
  | .field =>
    [(0x0001, "public"), (0x0002, "private"), (0x0004, "protected"), (0x0008, "static"),
     (0x0010, "final"), (0x0040, "volatile"), (0x0080, "transient"), (0x1000, "synthetic"),
     (0x4000, "enum")]
  | .method =>
    [(0x0001, "public"), (0x0002, "private"), (0x0004, "protected"), (0x0008, "static"),
     (0x0010, "final"), (0x0020, "synchronized"), (0x0100, "native"), (0x0400, "abstract"),
     (0x0800, "strictfp"), (0x1000, "synthetic")]

def modifiers (flags : AccessFlags) (carrier : Carrier) : List String :=
  ((words carrier).filter fun w => has flags w.1).map (·.2)

/-- The modifiers with a blank between each two. -/
def spell (flags : AccessFlags) (carrier : Carrier) : String :=
  " ".intercalate (modifiers flags carrier)

end AccessFlags
end ClassAtlas.ClassFile
