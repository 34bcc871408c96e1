import ZeroTrace.SliceReads
import ZeroTrace.TracedExec

/-!
# The Hessian 2 decoder

`Hessian2Decoder::decode_field` reads one value of a payload at an index and
returns it with the number of bytes it took.  Lists, maps and objects read
their parts by calling it again at later indices.

The decoders that read a number or a string only are computations that may
panic.  The others are traced: they note each place at which a value, a chunk of
binary data or an element of a list, map or object is read, and for each turn of
the list, map and object loops the bytes it took and whether the loop was left.
The loops take the reader of one value as an argument, and `decodeField` passes
itself.  One bound, the fuel, limits both how deep the calls go and how often each
loop turns.

Lengths added to an index are checked additions.  The small constants added to
an index inside the payload are not: no slice has `2 ^ 63` bytes.
-/

namespace ZeroTrace.Hessian2

open RustExec Slices TracedExec

def bcEnd : BitVec 8 := 0x5a#8
def bcNull : BitVec 8 := 0x4e#8
def bcRef : BitVec 8 := 0x51#8
def bcTrue : BitVec 8 := 0x54#8
def bcFalse : BitVec 8 := 0x46#8
def bcString : BitVec 8 := 0x53#8
def bcStringChunk : BitVec 8 := 0x52#8
def bcMap : BitVec 8 := 0x4d#8
def bcMapUntyped : BitVec 8 := 0x48#8
def bcObject : BitVec 8 := 0x4f#8
def bcObjectDef : BitVec 8 := 0x43#8
def bcBinary : BitVec 8 := 0x42#8
def bcBinaryChunk : BitVec 8 := 0x41#8
def bcDate : BitVec 8 := 0x4a#8
def bcDateMinute : BitVec 8 := 0x4b#8
def bcDouble : BitVec 8 := 0x44#8
def bcDoubleZero : BitVec 8 := 0x5b#8
def bcDoubleOne : BitVec 8 := 0x5c#8
def bcDoubleByte : BitVec 8 := 0x5d#8
def bcDoubleShort : BitVec 8 := 0x5e#8
def bcDoubleMill : BitVec 8 := 0x5f#8
def bcInt : BitVec 8 := 0x49#8
def bcIntZero : BitVec 8 := 0x90#8
def bcIntByteZero : BitVec 8 := 0xc8#8
def bcIntShortZero : BitVec 8 := 0xd4#8
def bcListFixed : BitVec 8 := 0x56#8
def bcListVariable : BitVec 8 := 0x55#8
def bcListVariableUntyped : BitVec 8 := 0x57#8
def bcListFixedUntyped : BitVec 8 := 0x58#8
def bcLong : BitVec 8 := 0x4c#8
def bcLongZero : BitVec 8 := 0xe0#8
def bcLongByteZero : BitVec 8 := 0xf8#8
def bcLongShortZero : BitVec 8 := 0x3c#8
def bcLongInt : BitVec 8 := 0x59#8

/-- The tag lies in a range of the source's `match`. -/
def within (tag : BitVec 8) (low high : Nat) : Bool :=
  decide (low ≤ tag.toNat) && decide (tag.toNat ≤ high)

/-- An `f64`: an integer that was cast, or eight bytes. -/
inductive Double where
  | nat (n : Nat)
  | bits (b : BitVec 64)
  deriving DecidableEq

/-- `HessianValue`.  A string holds ASCII bytes, a map one entry for each key. -/
inductive HessianValue where
  | null
  | bool (b : Bool)
  | int (n : BitVec 32)
  | long (n : BitVec 64)
  | dateTime (n : BitVec 64)
  | double (d : Double)
  | binary (data : Bytes)
  | string (text : Bytes)
  | map (entries : List (Bytes × HessianValue))

abbrev Entries := List (Bytes × HessianValue)

/-- `HashMap::insert`: an entry of the same key is replaced. -/
def Entries.insert (entries : Entries) (key : Bytes) (value : HessianValue) : Entries :=
  entries.filter (fun entry => entry.1 ≠ key) ++ [(key, value)]

/-- `class_field_info`: the names of the fields of each class. -/
abbrev Classes := List (List Bytes)

/-- What a run notes. -/
inductive Event where
  /-- A value is read at a place inside the payload, with so many classes known. -/
  | enter (place known : Nat)
  /-- A chunk of binary data is read. -/
  | chunk (place : Nat)
  /-- An element of a list, a map or an object is read.  There is `more` to come if it is
  not the last one of a list or an object, or if it is inside the payload in a map. -/
  | element (place known : Nat) (more : Bool)
  /-- A loop has turned. -/
  | turn (consumed : Nat) (leaves : Bool)
  deriving DecidableEq

/-- A value, if there is one, and the bytes it took. -/
abbrev Decoded := Option HessianValue × Nat

/-! ## Numbers -/

/-- The eight bytes at a place, most significant first. -/
def quadAt (bytes : Bytes) (i : Nat) : BitVec 64 := doubleAt bytes i ++ doubleAt bytes (i + 4)

/-- The byte in front of a three-byte integer that `buf[1]` extends. -/
def signByte (b : BitVec 8) : BitVec 8 := if b &&& 0x80#8 ≠ 0#8 then 0xff#8 else 0#8

variable (payload : Bytes) (i start : Nat) (tag : BitVec 8)

def decodeI32 : Exec (BitVec 32 × Nat) :=
  index payload i >>= fun tag =>
  if within tag 0x80 0xbf then .ok ((tag - bcIntZero).setWidth 32, 1)
  else if within tag 0xc0 0xcf ∧ i + 1 < payload.length then
    index payload (i + 1) >>= fun low =>
    .ok (((tag - bcIntByteZero) ++ low).setWidth 32, 2)
  else if within tag 0xd0 0xd7 ∧ i + 2 < payload.length then
    index payload (i + 1) >>= fun mid =>
    index payload (i + 2) >>= fun low =>
    .ok (signByte (tag - bcIntShortZero) ++ (tag - bcIntShortZero) ++ mid ++ low, 3)
  else if tag = bcInt ∧ i + 4 < payload.length then
    slice payload (i + 1) (i + 5) >>= fun data => .ok (doubleAt data 0, 5)
  else .ok (0, 0)

def decodeI64 : Exec (BitVec 64 × Nat) :=
  index payload i >>= fun tag =>
  if within tag 0xd8 0xef then .ok ((tag - bcLongZero).setWidth 64, 1)
  else if within tag 0xf0 0xff ∧ i + 1 < payload.length then
    index payload (i + 1) >>= fun low =>
    .ok (((tag - bcLongByteZero) ++ low).setWidth 64, 2)
  else if within tag 0x38 0x3f ∧ i + 2 < payload.length then
    index payload (i + 1) >>= fun mid =>
    index payload (i + 2) >>= fun low =>
    -- the four bytes are a `u32`, so the cast to `i64` does not extend the sign
    .ok ((signByte (tag - bcLongShortZero) ++ (tag - bcLongShortZero) ++ mid ++ low).setWidth 64, 3)
  else if tag = bcLongInt ∧ i + 4 < payload.length then
    slice payload (i + 1) (i + 5) >>= fun data => .ok ((doubleAt data 0).signExtend 64, 5)
  else if tag = bcLong ∧ i + 8 < payload.length then
    slice payload (i + 1) (i + 9) >>= fun data => .ok (quadAt data 0, 9)
  else .ok (0, 0)

def decodeDatetime : Exec (BitVec 64 × Nat) :=
  index payload i >>= fun tag =>
  if tag = bcDate ∧ i + 8 < payload.length then
    slice payload (i + 1) (i + 9) >>= fun data => .ok (quadAt data 0, 9)
  else if tag = bcDateMinute ∧ i + 4 < payload.length then
    slice payload (i + 1) (i + 5) >>= fun data =>
    checkedMul 32 (doubleAt data 0).toNat 60 >>= fun seconds => .ok (BitVec.ofNat 64 seconds, 5)
  else .ok (0, 0)

def decodeF64 : Exec (Double × Nat) :=
  index payload i >>= fun tag =>
  if tag = bcDoubleZero then .ok (.nat 0, 1)
  else if tag = bcDoubleOne then .ok (.nat 1, 1)
  else if tag = bcDoubleByte ∧ i + 1 < payload.length then
    slice payload (i + 1) (i + 2) >>= fun data => .ok (.nat (byteAt data 0).toNat, 2)
  else if tag = bcDoubleShort ∧ i + 2 < payload.length then
    slice payload (i + 1) (i + 3) >>= fun data => .ok (.nat (wordAt data 0).toNat, 3)
  else if tag = bcDoubleMill ∧ i + 4 < payload.length then
    slice payload (i + 1) (i + 5) >>= fun data => .ok (.nat (doubleAt data 0).toNat, 5)
  else if tag = bcDouble ∧ i + 8 < payload.length then
    slice payload (i + 1) (i + 9) >>= fun data => .ok (.bits (quadAt data 0), 9)
  else .ok (.nat 0, 0)

/-! ## Binary data and strings -/

/-- `(hi << 8) + lo` of the two bytes before a place. -/
def chunkLength : Exec Nat :=
  index payload (start - 2) >>= fun high =>
  index payload (start - 1) >>= fun low => .ok (high.toNat * 256 + low.toNat)

/-- The `match` of `decode_binary`: where the data of a chunk starts and its
length, or nothing where the source returns a length of 0. -/
def binaryHeader : Exec (Option (Nat × Nat)) :=
  if within tag 0x20 0x2f then .ok (some (start + 1, (tag - 0x20#8).toNat))
  else if within tag 0x34 0x37 ∧ start + 1 < payload.length then
    index payload (start + 1) >>= fun low =>
    -- `<<` binds weaker than `+`: the length byte is part of the distance
    checkedShl 64 (tag - 0x34#8).toNat (8 + low.toNat) >>= fun len => .ok (some (start + 2, len))
  else if (tag = bcBinaryChunk ∨ tag = bcBinary) ∧ start + 2 < payload.length then
    chunkLength payload (start + 3) >>= fun len => .ok (some (start + 3, len))
  else .ok none

/-- The loop of `decode_binary`. -/
def binaryLoop (payload : Bytes) (i : Nat) :
    Nat → Nat → BitVec 8 → Bytes → Traced Event (Bytes × Nat)
  | 0, _, _, _ => .outOfFuel
  | fuel + 1, start, tag, result =>
    Traced.tell (.chunk start) >>= fun _ =>
    Traced.lift (binaryHeader payload start tag) >>= fun header =>
    match header with
    | none => .pure (result, 0)
    | some (start, len) =>
      let stopped := Traced.lift (checkedSub start i) >>= fun read => .pure (result, read)
      if payload.length ≤ start then stopped
      else
        Traced.lift (checkedAdd 64 start len) >>= fun stop =>
        if payload.length < stop then stopped
        else
          Traced.lift (slice payload start stop) >>= fun data =>
          if tag ≠ bcBinaryChunk ∨ payload.length ≤ stop then
            Traced.lift (checkedSub stop i) >>= fun read => .pure (result ++ data, read)
          else
            Traced.lift (index payload stop) >>= fun tag =>
            binaryLoop payload i fuel stop tag (result ++ data)

def decodeBinary : Traced Event (Bytes × Nat) :=
  Traced.lift (index payload i) >>= fun tag =>
  binaryLoop payload i (payload.length + 1) i tag []

/-- The `match` of `decode_string`. -/
def stringHeader : Exec (Option (Nat × Nat)) :=
  if within tag 0x00 0x1f then .ok (some (start + 1, tag.toNat))
  else if within tag 0x30 0x33 ∧ start + 1 < payload.length then
    index payload start >>= fun first =>
    checkedSub first.toNat 0x30 >>= fun high =>
    index payload (start + 1) >>= fun low =>
    .ok (some (start + 2, high * 256 + low.toNat))
  else if (tag = bcStringChunk ∨ tag = bcString) ∧ start + 2 < payload.length then
    chunkLength payload (start + 3) >>= fun len => .ok (some (start + 3, len))
  else .ok none

/-- `is_ascii` of every byte. -/
def ascii (data : Bytes) : Bool := data.all fun b => decide (b.toNat < 128)

/-- The loop of `decode_string`. -/
def stringLoop (payload : Bytes) (i : Nat) :
    Nat → Nat → BitVec 8 → Bytes → Exec (Option Bytes × Nat)
  | 0, _, _, _ => .error .outOfFuel
  | fuel + 1, start, tag, result =>
    stringHeader payload start tag >>= fun header =>
    match header with
    | none => .ok (none, 0)
    | some (start, len) =>
      let stopped := checkedSub start i >>= fun read => .ok (some result, read)
      if payload.length ≤ start then stopped
      else
        checkedAdd 64 start len >>= fun stop =>
        if payload.length < stop then stopped
        else
          slice payload start stop >>= fun data =>
          if !ascii data then .ok (none, 0)
          else if tag ≠ bcStringChunk ∨ payload.length ≤ stop then
            checkedSub stop i >>= fun read => .ok (some (result ++ data), read)
          else
            index payload stop >>= fun tag =>
            stringLoop payload i fuel stop tag (result ++ data)

def decodeString : Exec (Option Bytes × Nat) :=
  index payload i >>= fun tag => stringLoop payload i (payload.length + 1) i tag []

/-! ## Lists, maps and objects -/

/-- `n as usize` of an `i32`. -/
def asUsize (n : BitVec 32) : Nat := (n.signExtend 64).toNat

/-- The reader of one value, as the loops call it. -/
abbrev Reader := Nat → Classes → Traced Event (Decoded × Classes)

/-- What `decode_list` knows before its loop: a length to return, or where the
elements start and how many there are. -/
inductive ListHeader where
  | done (len : Nat)
  | elements (start count : Nat)
  deriving DecidableEq

/-- The bytes up to the first `BC_END` from a place on, counted from that place;
all of the payload if there is none. -/
def untilEnd : Nat :=
  ((payload.drop start).findIdx? (· == bcEnd)).getD (payload.length - 1) + 1

/-- A list of unknown length: the count from `start` on, less the index. -/
def variableList : Exec ListHeader :=
  sliceFrom payload start >>= fun _ =>
  checkedSub payload.length 1 >>= fun _ =>
  checkedSub (untilEnd payload start) i >>= fun len => .ok (.done len)

/-- `decode_list` up to its loop. -/
def listHeader : Exec ListHeader :=
  index payload i >>= fun tag =>
  if payload.length ≤ i + 1 then .ok (.done 0)
  else if tag = bcListFixed then
    decodeString payload (i + 1) >>= fun type =>
    checkedAdd 64 (i + 1) type.2 >>= fun start =>
    if payload.length ≤ start then .ok (.done 0)
    else
      decodeI32 payload start >>= fun count =>
      checkedAdd 64 start count.2 >>= fun start => .ok (.elements start (asUsize count.1))
  else if tag = bcListVariable then
    decodeString payload (i + 1) >>= fun type =>
    checkedAdd 64 (i + 1) type.2 >>= fun start =>
    if payload.length ≤ start then checkedSub start i >>= fun len => .ok (.done len)
    else variableList payload i start
  else if within tag 0x70 0x77 then
    decodeString payload (i + 1) >>= fun type =>
    checkedAdd 64 (i + 1) type.2 >>= fun start => .ok (.elements start (tag - 0x70#8).toNat)
  else if tag = bcListFixedUntyped then
    decodeI32 payload (i + 1) >>= fun count =>
    checkedAdd 64 (i + 1) count.2 >>= fun start => .ok (.elements start (asUsize count.1))
  else if tag = bcListVariableUntyped then variableList payload i (i + 1)
  else if within tag 0x78 0x7f then .ok (.elements (i + 1) (tag - 0x78#8).toNat)
  else .ok (.elements (i + 1) 0)

/-- The loop of `decode_list`. -/
def listLoop (payload : Bytes) (read : Reader) :
    Nat → Nat → Nat → Classes → Traced Event (Nat × Classes)
  | fuel, count, start, classes =>
    if count = 0 then .pure (start, classes)
    else
      match fuel with
      | 0 => .outOfFuel
      | fuel + 1 =>
        if payload.length ≤ start then
          Traced.tell (.turn 0 true) >>= fun _ => .pure (start, classes)
        else
          Traced.tell (.element start classes.length (decide (count ≠ 1))) >>= fun _ =>
          read start classes >>= fun got =>
          Traced.lift (checkedAdd 64 start got.1.2) >>= fun next =>
          Traced.tell (.turn got.1.2 (decide (count = 1))) >>= fun _ =>
          listLoop payload read fuel (count - 1) next got.2

def decodeList (read : Reader) (fuel i : Nat) (classes : Classes) : Traced Event (Nat × Classes) :=
  Traced.lift (listHeader payload i) >>= fun header =>
  match header with
  | .done len => .pure (len, classes)
  | .elements start count =>
    listLoop payload read fuel count start classes >>= fun after =>
    Traced.lift (checkedSub after.1 i) >>= fun len => .pure (len, after.2)

/-- `decode_map` up to its loop: where the entries start, or nothing where the
source returns a length of 0. -/
def mapHeader : Exec (Option Nat) :=
  index payload i >>= fun tag =>
  if payload.length ≤ i + 1 then .ok none
  else if tag = bcMap then
    decodeString payload (i + 1) >>= fun type =>
    if type.2 = 0 then
      decodeI32 payload (i + 1) >>= fun ref =>
      checkedAdd 64 (i + 1) ref.2 >>= fun start => .ok (some start)
    -- the length of a type that is a string is not added
    else .ok (some (i + 1))
  else .ok (some (i + 1))

def insertEntry (entries : Entries) (key value : Option HessianValue) : Entries :=
  match key, value with
  | some (.string k), some v => entries.insert k v
  | _, _ => entries

/-- The loop of `decode_map`.  The tag is never `BC_END` when it is entered, so
the test stands at the end of a turn. -/
def mapLoop (payload : Bytes) (read : Reader) :
    Nat → Nat → Entries → Classes → Traced Event (Entries × Nat × Classes)
  | 0, _, _, _ => .outOfFuel
  | fuel + 1, start, entries, classes =>
    Traced.tell (.element start classes.length (decide (start < payload.length))) >>= fun _ =>
    read start classes >>= fun key =>
    Traced.lift (checkedAdd 64 start key.1.2) >>= fun middle =>
    Traced.tell (.element middle key.2.length (decide (middle < payload.length))) >>= fun _ =>
    read middle key.2 >>= fun value =>
    Traced.lift (checkedAdd 64 middle value.1.2) >>= fun next =>
    let entries := insertEntry entries key.1.1 value.1.1
    let consumed := key.1.2 + value.1.2
    if payload.length ≤ next then
      Traced.tell (.turn consumed true) >>= fun _ => .pure (entries, next, value.2)
    else
      Traced.lift (index payload next) >>= fun tag =>
      if tag = bcEnd then
        Traced.tell (.turn consumed true) >>= fun _ => .pure (entries, next, value.2)
      else
        Traced.tell (.turn consumed false) >>= fun _ =>
        mapLoop payload read fuel next entries value.2

def decodeMap (read : Reader) (fuel i : Nat) (classes : Classes) :
    Traced Event ((Entries × Nat) × Classes) :=
  Traced.lift (mapHeader payload i) >>= fun header =>
  match header with
  | none => .pure (([], 0), classes)
  | some start =>
    mapLoop payload read fuel start [] classes >>= fun after =>
    Traced.lift (checkedSub after.2.1 i) >>= fun len =>
    Traced.lift (checkedAdd 64 len 1) >>= fun len => .pure ((after.1, len), after.2.2)

/-- `Vec::with_capacity(n as usize)`: a negative count is far beyond what a
vector can hold. -/
def withCapacity (n : BitVec 32) : Exec Unit :=
  if n.toInt < 0 then .error .overflow else .ok ()

/-- What the loop over the names does with a string it has read: a name is kept
and the loop goes on, anything else ends it. -/
def afterName (names : List Bytes) (start : Nat) (name : Option Bytes × Nat)
    (more : Nat → List Bytes → Exec (List Bytes × Nat)) : Exec (List Bytes × Nat) :=
  match name.1 with
  | none => .ok (names, start)
  | some text => checkedAdd 64 start name.2 >>= fun next => more next (names ++ [text])

def namesLoop (payload : Bytes) :
    Nat → Nat → Nat → List Bytes → Exec (List Bytes × Nat)
  | fuel, count, start, names =>
    if count = 0 then .ok (names, start)
    else
      match fuel with
      | 0 => .error .outOfFuel
      | fuel + 1 =>
        if payload.length ≤ start then .ok (names, start)
        else
          decodeString payload start >>= fun name =>
          afterName names start name (namesLoop payload fuel (count - 1))

/-- The definition of a class: where its names end and what they are, or nothing
where the source returns a length of 0. -/
def classHeader : Exec (Option (List Bytes × Nat)) :=
  decodeString payload (i + 1) >>= fun name =>
  checkedAdd 64 (i + 1) name.2 >>= fun start =>
  if payload.length ≤ start then .ok none
  else
    decodeI32 payload start >>= fun count =>
    checkedAdd 64 start count.2 >>= fun start =>
    withCapacity count.1 >>= fun _ =>
    namesLoop payload (payload.length + 1) count.1.toNat start [] >>= fun names => .ok (some names)

/-- Where the fields of an object start and the index of its class. -/
def objectHeader : Exec (Nat × Nat) :=
  if tag = bcObject then
    decodeI32 payload (i + 1) >>= fun number =>
    checkedAdd 64 (i + 1) number.2 >>= fun start => .ok (start, asUsize number.1)
  else .ok (i + 1, (tag - 0x60#8).toNat)

/-- `object_map.insert` of a value that is there. -/
def insertField (entries : Entries) (name : Bytes) (value : Option HessianValue) : Entries :=
  match value with
  | some v => entries.insert name v
  | none => entries

/-- The loop over the fields of an object.  It does not test for the end of the
payload. -/
def fieldsLoop (read : Reader) :
    Nat → List Bytes → Nat → Entries → Classes → Traced Event (Entries × Nat × Classes)
  | _, [], start, entries, classes => .pure (entries, start, classes)
  | 0, _ :: _, _, _, _ => .outOfFuel
  | fuel + 1, name :: names, start, entries, classes =>
    Traced.tell (.element start classes.length !names.isEmpty) >>= fun _ =>
    read start classes >>= fun got =>
    Traced.lift (checkedAdd 64 start got.1.2) >>= fun next =>
    Traced.tell (.turn got.1.2 names.isEmpty) >>= fun _ =>
    fieldsLoop read fuel names next (insertField entries name got.1.1) got.2

/-- The map in a value, as `decode_obj` takes it from the instance. -/
def mapOf (value : Option HessianValue) : Entries :=
  match value with
  | some (.map entries) => entries
  | _ => []

/-- `decode_obj` on the definition of a class. -/
def decodeClass (read : Reader) (i : Nat) (classes : Classes) :
    Traced Event ((Entries × Nat) × Classes) :=
  Traced.lift (classHeader payload i) >>= fun header =>
  match header with
  | none => .pure (([], 0), classes)
  | some (names, start) =>
    read start (classes ++ [names]) >>= fun got =>
    Traced.lift (checkedAdd 64 start got.1.2) >>= fun stop =>
    Traced.lift (checkedSub stop i) >>= fun len => .pure ((mapOf got.1.1, len), got.2)

/-- `decode_obj` on an instance. -/
def decodeInstance (read : Reader) (fuel i : Nat) (tag : BitVec 8)
    (classes : Classes) : Traced Event ((Entries × Nat) × Classes) :=
  Traced.lift (objectHeader payload i tag) >>= fun header =>
  match classes[header.2]? with
  | none => .pure (([], 0), classes)
  | some names =>
    fieldsLoop read fuel names header.1 [] classes >>= fun after =>
    Traced.lift (checkedSub after.2.1 i) >>= fun len => .pure ((after.1, len), after.2.2)

def decodeObj (read : Reader) (fuel i : Nat) (classes : Classes) :
    Traced Event ((Entries × Nat) × Classes) :=
  Traced.lift (index payload i) >>= fun tag =>
  if tag = bcObjectDef then decodeClass payload read i classes
  else if tag = bcObject ∨ within tag 0x60 0x6f then
    decodeInstance payload read fuel i tag classes
  else .pure (([], 0), classes)

/-! ## One value -/

/-- The arms of `decode_field`. -/
inductive Kind where
  | finish
  | null
  | bool (b : Bool)
  | ref
  | int
  | long
  | date
  | double
  | binary
  | string
  | list
  | map
  | object
  | unknown
  deriving DecidableEq

/-- The arm a tag selects. -/
def kindOf : Kind :=
  if tag = bcEnd then .finish
  else if tag = bcNull then .null
  else if tag = bcTrue then .bool true
  else if tag = bcFalse then .bool false
  else if tag = bcRef then .ref
  else if within tag 0x80 0xd7 ∨ tag = bcInt then .int
  else if within tag 0xd8 0xff ∨ within tag 0x38 0x3f ∨ tag = bcLongInt ∨ tag = bcLong then .long
  else if tag = bcDate ∨ tag = bcDateMinute then .date
  else if within tag 0x5b 0x5f ∨ tag = bcDouble then .double
  else if within tag 0x20 0x2f ∨ within tag 0x34 0x37 ∨ tag = bcBinaryChunk ∨ tag = bcBinary then
    .binary
  else if within tag 0x30 0x33 ∨ within tag 0x00 0x1f ∨ tag = bcStringChunk ∨ tag = bcString then
    .string
  else if within tag 0x70 0x7f ∨ within tag 0x55 0x58 then .list
  else if tag = bcMap ∨ tag = bcMapUntyped then .map
  else if tag = bcObjectDef ∨ tag = bcObject ∨ within tag 0x60 0x6f then .object
  else .unknown

/-- A string that cannot be read gives up the rest of the payload. -/
def stringValue (got : Option Bytes × Nat) : Decoded :=
  match got.1 with
  | some text => (some (.string text), got.2)
  | none => (none, payload.length)

/-- The `match` of `decode_field`. -/
def fieldBody (read : Reader) (fuel start : Nat) (classes : Classes)
    (kind : Kind) : Traced Event (Decoded × Classes) :=
  match kind with
  | .finish => .pure ((none, 1), classes)
  | .null => .pure ((some .null, 1), classes)
  | .bool b => .pure ((some (.bool b), 1), classes)
  | .ref => Traced.lift (decodeI32 payload start) >>= fun got => .pure ((none, got.2), classes)
  | .int =>
    Traced.lift (decodeI32 payload start) >>= fun got =>
    .pure ((some (.int got.1), got.2), classes)
  | .long =>
    Traced.lift (decodeI64 payload start) >>= fun got =>
    .pure ((some (.long got.1), got.2), classes)
  | .date =>
    Traced.lift (decodeDatetime payload start) >>= fun got =>
    .pure ((some (.dateTime got.1), got.2), classes)
  | .double =>
    Traced.lift (decodeF64 payload start) >>= fun got =>
    .pure ((some (.double got.1), got.2), classes)
  | .binary =>
    decodeBinary payload start >>= fun got => .pure ((some (.binary got.1), got.2), classes)
  | .string =>
    Traced.lift (decodeString payload start) >>= fun got =>
    .pure (stringValue payload got, classes)
  | .list =>
    decodeList payload read fuel start classes >>= fun got => .pure ((none, got.1), got.2)
  | .map =>
    decodeMap payload read fuel start classes >>= fun got =>
    .pure ((some (.map got.1.1), got.1.2), got.2)
  | .object =>
    decodeObj payload read fuel start classes >>= fun got =>
    .pure ((some (.map got.1.1), got.1.2), got.2)
  | .unknown => .pure ((none, payload.length), classes)

def decodeField (payload : Bytes) : Nat → Reader
  | 0 => fun _ _ => .outOfFuel
  | fuel + 1 => fun start classes =>
    if payload.length ≤ start then .pure ((none, 0), classes)
    else
      Traced.tell (.enter start classes.length) >>= fun _ =>
      Traced.lift (index payload start) >>= fun tag =>
      fieldBody payload (decodeField payload fuel) fuel start classes (kindOf tag)

end ZeroTrace.Hessian2
