import ClassAtlas.ClassFile.Body

/-!
Why a class file cannot be read. A failure has a cause and, beyond the header, the
place in the file where it arose. Input that ends too soon and input that breaks
off with an error of its own fail at the same sites and differ in the cause alone.
-/
namespace ClassAtlas.ClassFile

/-- What was being read when the input ended. -/
inductive Site where
  | magic | version | poolCount | constantTag
  | constant (kind : ConstantKind)
  | classInfo | interfaces | fieldCount | memberHeader | methodCount
  | attributeCount | attributeBody
deriving Repr, DecidableEq

def Site.name : Site → String
  | magic => "magic"
  | version => "version"
  | poolCount => "constant pool count"
  | constantTag => "constant tag"
  | constant kind => kind.name ++ " constant"
  | classInfo => "class info"
  | interfaces => "interfaces"
  | fieldCount => "fields count"
  | memberHeader => "member header"
  | methodCount => "methods count"
  | attributeCount => "attributes count"
  | attributeBody => "attribute"

inductive Cause where
  /-- The input ended. -/
  | truncated (site : Site)
  /-- The input broke off with an error. -/
  | broken (site : Site) (error : Error)
  | magic (found : UInt32)
  | noPool
  | unknownTag (tag : UInt8)
  /-- A two-slot constant starts in the last slot. -/
  | wideAtEnd (kind : ConstantKind)
  | body (kind : BodyKind) (fault : BodyFault)
deriving Repr, DecidableEq

/-- Upper-case hexadecimal digits without leading zeros. -/
def upperHex (n : Nat) : String := String.ofList ((Nat.toDigits 16 n).map Char.toUpper)

def Cause.error : Cause → Error
  | truncated site => Sentinel.truncatedInput.saying ("reading " ++ site.name)
  | broken site error => error.under ("read " ++ site.name)
  | magic found => Sentinel.malformedContainer.saying ("invalid magic number 0x" ++ upperHex found.toNat)
  | noPool => Sentinel.malformedContainer.saying "constant pool count is zero"
  | unknownTag tag => Sentinel.malformedContainer.saying ("unknown constant pool tag " ++ toString tag.toNat)
  | wideAtEnd kind => Sentinel.malformedContainer.saying (kind.name ++ " constant at last pool slot")
  | body kind fault => badAttribute kind.name fault.error

inductive Place where
  | header
  | poolEntry (index : Nat)
  | field (number : Nat)
  | method (number : Nat)
  | classAttributes
deriving Repr, DecidableEq

/-- What a message starts with to name the place. -/
def Place.label : Place → String
  | header => ""
  | poolEntry index => "constant pool entry " ++ toString index ++ ": "
  | field number => "field " ++ toString number ++ ": "
  | method number => "method " ++ toString number ++ ": "
  | classAttributes => "class attributes: "

/-- An error with the place where it arose in front, if that has a name. -/
def Place.mark (place : Place) (e : Error) : Error :=
  if place.label = "" then e else .wrap place.label e ""

@[simp] theorem Place.kind_mark (place : Place) (e : Error) : (place.mark e).kind = e.kind := by
  unfold mark
  split <;> simp

theorem Place.message_mark (place : Place) (e : Error) : (place.mark e).message = place.label ++ e.message := by
  unfold mark
  split
  · rename_i h
    rw [h, String.empty_append]
  · rw [Error.message, String.append_empty]

theorem Place.mem_chain_mark {place : Place} {e x : Error} (h : x ∈ e.chain) : x ∈ (place.mark e).chain := by
  unfold mark
  split
  · exact h
  · exact List.mem_cons_of_mem _ h

structure Failure where
  place : Place
  cause : Cause
deriving Repr, DecidableEq

def Failure.error (f : Failure) : Error := f.place.mark f.cause.error

theorem Failure.kind_error (f : Failure) : f.error.kind = f.cause.error.kind := Place.kind_mark ..

end ClassAtlas.ClassFile
