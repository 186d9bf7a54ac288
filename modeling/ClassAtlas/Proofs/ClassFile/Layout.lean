import ClassAtlas.Proofs.ClassFile.Accepts

/-! The layout of a class file.

What bytes spell a class, said without a reader: words are big-endian, a table is a count and
that many rows, and an attribute is its name, its length and its bytes. A pool of count `c` has
`c - 1` slots; a constant fills one of them, or two when it is a `long` or a `double`, and the
second of two stays empty. An attribute whose name is one that is read has contents, and its
bytes spell them. -/
namespace ClassAtlas.ClassFile
open Bytes

/-! ### Constants -/

/-- The bytes of a constant: its tag and then its contents. -/
inductive ConstantLayout : Constant → Bytes → Prop where
  | utf8 (length : UInt16) (payload : Bytes) : payload.length = length.toNat →
      ConstantLayout (.utf8 (Text.ModifiedUtf8.decode payload)) (1 :: (of16 length ++ payload))
  | integer (value : Int32) : ConstantLayout (.integer value) (3 :: of32 value.toUInt32)
  | float (bits : UInt32) : ConstantLayout (.float bits) (4 :: of32 bits)
  | long (value : Int64) : ConstantLayout (.long value) (5 :: of64 value.toUInt64)
  | double (bits : UInt64) : ConstantLayout (.double bits) (6 :: of64 bits)
  | classRef (name : Index) : ConstantLayout (.classRef name) (7 :: of16 name)
  | string (value : Index) : ConstantLayout (.string value) (8 :: of16 value)
  | fieldref (owner member : Index) :
      ConstantLayout (.fieldref owner member) (9 :: (of16 owner ++ of16 member))
  | methodref (owner member : Index) :
      ConstantLayout (.methodref owner member) (10 :: (of16 owner ++ of16 member))
  | interfaceMethodref (owner member : Index) :
      ConstantLayout (.interfaceMethodref owner member) (11 :: (of16 owner ++ of16 member))
  | nameAndType (name descriptor : Index) :
      ConstantLayout (.nameAndType name descriptor) (12 :: (of16 name ++ of16 descriptor))
  | methodHandle (action : UInt8) (target : Index) :
      ConstantLayout (.methodHandle action target) (15 :: action :: of16 target)
  | methodType (descriptor : Index) : ConstantLayout (.methodType descriptor) (16 :: of16 descriptor)
  | dynamic (bootstrap : UInt16) (member : Index) :
      ConstantLayout (.dynamic bootstrap member) (17 :: (of16 bootstrap ++ of16 member))
  | invokeDynamic (bootstrap : UInt16) (member : Index) :
      ConstantLayout (.invokeDynamic bootstrap member) (18 :: (of16 bootstrap ++ of16 member))
  | module (name : Index) : ConstantLayout (.module name) (19 :: of16 name)
  | package (name : Index) : ConstantLayout (.package name) (20 :: of16 name)

/-- Whether a constant takes two slots. -/
def Constant.isWide : Constant → Bool
  | long _ | double _ => true
  | _ => false

/-- The slots of a pool and the constants that fill them, with no slot left over. -/
inductive SlotsLayout : List (Option Constant) → Bytes → Prop where
  | nil : SlotsLayout [] []
  | narrow {c x slots xs} : ConstantLayout c x → c.isWide = false → SlotsLayout slots xs →
      SlotsLayout (some c :: slots) (x ++ xs)
  | wide {c x slots xs} : ConstantLayout c x → c.isWide = true → SlotsLayout slots xs →
      SlotsLayout (some c :: none :: slots) (x ++ xs)

/-! ### Tables -/

/-- A two-byte count and that many rows. -/
def Table (G : α → Bytes → Prop) (rows : List α) (bs : Bytes) : Prop :=
  ∃ (count : UInt16) (xs : Bytes), bs = of16 count ++ xs ∧ rows.length = count.toNat ∧ Sequence G rows xs

def IndexLayout (i : Index) (bs : Bytes) : Prop := bs = of16 i

def LocalLayout (l : Local) (bs : Bytes) : Prop :=
  bs = of16 l.start ++ of16 l.length ++ of16 l.name ++ of16 l.descriptor ++ of16 l.slot

def HandlerLayout (h : Handler) (bs : Bytes) : Prop :=
  bs = of16 h.start ++ of16 h.stop ++ of16 h.handler ++ of16 h.caught

def ParameterLayout (p : Parameter) (bs : Bytes) : Prop := bs = of16 p.name ++ of16 p.access

/-! ### Attributes -/

/-- The frame of every attribute: its name, the length of its bytes, and the bytes as they are. -/
def Framed (name : Index) (info bs : Bytes) : Prop :=
  ∃ length : UInt32, info.length = length.toNat ∧ bs = of16 name ++ of32 length ++ info

/-- An attribute of a code body has rows exactly when it is named a table of local variables. -/
def Rows (pool : Pool) (name : Index) (info : Bytes) (locals : Option (List Local)) : Prop :=
  if pool.utf8? name = some "LocalVariableTable" then ∃ rows, locals = some rows ∧ Table LocalLayout rows info
  else locals = none

def CodeAttributeLayout (pool : Pool) (a : CodeAttribute) (bs : Bytes) : Prop :=
  Framed a.name a.info bs ∧ Rows pool a.name a.info a.locals

def CodeLayout (pool : Pool) (c : Code) (bs : Bytes) : Prop :=
  ∃ (length : UInt32) (handlers attributes : Bytes), c.code.length = length.toNat ∧
    bs = of16 c.maxStack ++ of16 c.maxLocals ++ of32 length ++ c.code ++ handlers ++ attributes ∧
    Table HandlerLayout c.handlers handlers ∧ Table (CodeAttributeLayout pool) c.attributes attributes

/-- The contents that bytes spell, by the name of the attribute. -/
inductive BodyLayout (pool : Pool) : String → Body → Bytes → Prop where
  | code {c info} : CodeLayout pool c info → BodyLayout pool "Code" (.code c) info
  | sourceFile (i : Index) : BodyLayout pool "SourceFile" (.sourceFile i) (of16 i)
  | exceptions {classes info} : Table IndexLayout classes info →
      BodyLayout pool "Exceptions" (.exceptions classes) info
  | parameters {rows xs} (count : UInt8) : rows.length = count.toNat → Sequence ParameterLayout rows xs →
      BodyLayout pool "MethodParameters" (.parameters rows) (count :: xs)

/-- The names of the attributes whose contents are read. -/
def readNames : List String := ["Code", "SourceFile", "Exceptions", "MethodParameters"]

/-- An attribute has contents exactly when its name is one that is read, and its bytes spell them. -/
def Contents (pool : Pool) (name : Index) (info : Bytes) (body : Option Body) : Prop :=
  (∃ text b, pool.utf8? name = some text ∧ body = some b ∧ BodyLayout pool text b info) ∨
    (∀ text, pool.utf8? name = some text → text ∉ readNames) ∧ body = none

/-- An attribute of a class, field or method. -/
def AttributeLayout (pool : Pool) (a : Attribute) (bs : Bytes) : Prop :=
  Framed a.name a.info bs ∧ Contents pool a.name a.info a.body

/-! ### Members and classes -/

def MemberLayout (pool : Pool) (m : Member) (bs : Bytes) : Prop :=
  ∃ attributes, bs = of16 m.access ++ of16 m.name ++ of16 m.descriptor ++ attributes ∧
    Table (AttributeLayout pool) m.attributes attributes

/-- The bytes of a class file. -/
def ClassLayout (c : ClassModel) (bs : Bytes) : Prop :=
  ∃ (count : UInt16) (slots interfaces fields methods attributes : Bytes),
    bs = [0xCA, 0xFE, 0xBA, 0xBE] ++ of16 c.minor ++ of16 c.major ++ of16 count ++ slots ++
      of16 c.access ++ of16 c.this ++ of16 c.super ++ interfaces ++ fields ++ methods ++ attributes ∧
    count.toNat = c.pool.slots.size + 1 ∧ SlotsLayout c.pool.slots.toList slots ∧
    Table IndexLayout c.interfaces interfaces ∧ Table (MemberLayout c.pool) c.fields fields ∧
    Table (MemberLayout c.pool) c.methods methods ∧ Table (AttributeLayout c.pool) c.attributes attributes

end ClassAtlas.ClassFile
