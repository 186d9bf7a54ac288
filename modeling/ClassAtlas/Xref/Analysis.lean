import ClassAtlas.ClassFile.Decode
import ClassAtlas.Xref.Rendition
import ClassAtlas.Xref.Resolve

/-!
The analysis of a class file: the rendition of the class, and then the constants
that the rendition did not show. An analysis ends with the error of the first of its
stages that fails, which are reading the file, rendering the class and spelling the
constants.
-/
namespace ClassAtlas.Xref
open ClassFile

/-- A class file, rendered. `literals` holds the constants that the text does not show. -/
structure Analysis where
  text : String
  definitions : List String
  references : List String
  literals : List String
deriving Repr, DecidableEq

/-- The literals, a line each. -/
def Analysis.literalText (a : Analysis) : String :=
  String.join (a.literals.map (· ++ "\n"))

/-- Renders a class and collects what its rendition leaves out. -/
def analyze (links : Linker) (c : ClassModel) : Except Error Analysis := do
  let r ← render links c
  let literals ← ((Resolver.collect c.pool).run r.marks).1
  return ⟨r.text, r.definitions, r.references, literals⟩

def analyzeInput (links : Linker) (input : Input) : Except Error Analysis := do
  let (c, _) ← (decode input).mapError (·.error)
  analyze links c

def analyzeBytes (links : Linker) (bytes : Bytes) : Except Error Analysis :=
  analyzeInput links ⟨bytes, .finished⟩

end ClassAtlas.Xref
