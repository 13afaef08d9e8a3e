import TacEvm.Library.KeyValue
import TacEvm.Model.Ante

/-!
# The payload of an EIP-712 message

The messages of a payload are moved out of their array to fields of their own. Reading, setting and
deleting a plain key are those of maps, a deletion that of its first field; `gjson` takes other keys
as paths.

SOURCE: ethereum/eip712 (message.go, types.go)
-/

namespace TacEvm.Eip712

open KeyValue

/-- A JSON value; a number is kept as it is written. -/
inductive Json
  | null
  | bool (b : Bool)
  | number (raw : String)
  | string (s : String)
  | array (elems : List Json)
  | object (fields : List (String × Json))

/-- The fields of an object. -/
abbrev Fields := Db String Json

def Json.isObject : Json → Bool
  | .object _ => true
  | _ => false

def payloadMsgsField : String := "msgs"

def msgFieldForIndex (i : ℕ) : String := "msg" ++ toString i

/-- message.go:96-113 -/
def getPayloadMessages (payload : Fields) : Except Err (List Json) :=
  match get payload payloadMsgsField with
  | none => .error (errInvalidRequest.wrapf "no messages found in payload, unable to parse" [])
  | some .null => .ok []
  | some (.array msgs) => .ok msgs
  | some _ => .error (errInvalidRequest.wrapf "expected type array of messages, cannot parse" [])

section

-- what is printed of a value
variable (text : Json → String)

/-- message.go:117-137 -/
def payloadWithNewMessage (payload : Fields) (msg : Json) (index : ℕ) : Except Err Fields :=
  let field := msgFieldForIndex index
  if (get payload field).isSome then
    .error (errInvalidRequest.wrapf
      "malformed payload received, did not expect to find key at field %v" [.str field])
  else if msg.isObject = false then
    .error (errInvalidRequest.wrapf "msg at index %d is not valid JSON: %v"
      [.num index, .str (text msg)])
  else .ok (set payload field msg)

/-- The loop over the messages, from an index on. -/
def payloadWithNewMessages : Fields → List Json → ℕ → Except Err Fields
  | payload, [], _ => .ok payload
  | payload, msg :: msgs, index => do
    let payload ← payloadWithNewMessage text payload msg index
    payloadWithNewMessages payload msgs (index + 1)

def payloadWithoutMsgsField (payload : Fields) : Fields :=
  payload.eraseP fun field => field.1 = payloadMsgsField

/-- message.go:70-93 -/
def flattenPayloadMessages (payload : Fields) : Except Err (Fields × ℕ) := do
  let msgs ← getPayloadMessages payload
  let flattened ← payloadWithNewMessages text payload msgs 0
  return (payloadWithoutMsgsField flattened, msgs.length)

end

/-! ## Types

The types of the messages are collected in a map, the type of an object after those of its fields.
Keys are read literally, and words are taken to begin at the start, at dots and at underscores,
which is what `gjson` and `cases.Title` do for keys of letters, digits and underscores.
-/

/-- apitypes.Type -/
structure TypeField where
  name : String
  type : String
deriving DecidableEq

abbrev Types := Db String (List TypeField)

def rootPrefix : String := "_"
def typePrefix : String := "Type"
def txField : String := "Tx"
def maxDuplicateTypeDefs : ℕ := 1000

/-- The first letter of a word in upper case. -/
def title : List Char → List Char
  | [] => []
  | c :: cs => if c.isAlpha then c.toUpper :: cs else c :: title cs

/-- types.go:338-356 -/
def sanitizeTypedef (str : String) : String :=
  .ofList ((str.toList.splitOn '.').flatMap fun part =>
    if part = rootPrefix.toList then typePrefix.toList else (part.splitOn '_').flatMap title)

def typeDefForPrefix (path rootType : String) : String :=
  if path = rootPrefix then rootType else sanitizeTypedef path

def prefixForSubField (path fieldName : String) : String := path ++ "." ++ fieldName

def typeDefWithIndex (typeDef : String) (index : ℕ) : String := typeDef ++ toString index

/-- The loop of `addTypesToRoot`, with the names left to try. types.go:278-308 -/
def addTypesFrom (typeMap : Types) (typeDef : String) (types : List TypeField) (index : ℕ) :
    ℕ → Except Err (String × Types)
  | 0 => .error (errInvalidRequest.wrapf
      "exceeded maximum number of duplicates for a single type definition" [])
  | left + 1 =>
    let indexedTypeDef := typeDefWithIndex typeDef index
    match get typeMap indexedTypeDef with
    | none => .ok (indexedTypeDef, set typeMap indexedTypeDef types)
    | some existingTypes =>
      if types = existingTypes then .ok (indexedTypeDef, typeMap)
      else addTypesFrom typeMap typeDef types (index + 1) left

def addTypesToRoot (typeMap : Types) (typeDef : String) (types : List TypeField) :
    Except Err (String × Types) :=
  addTypesFrom typeMap typeDef types 0 maxDuplicateTypeDefs

/-- The type of a value that is neither an object nor an array.
types.go:361-375 -/
def getEthTypeForJSON : Json → Option String
  | .bool _ => some "bool"
  | .number _ => some "int64"
  | .string _ => some "string"
  | _ => none

/-- What is done for a field with a path: its type, if it has one. -/
abbrev Walk := String → Types → Except Err (Option String × Types)

/-- The loop over the fields of an object. -/
def addFields (path : String) :
    List (String × Walk) → List TypeField → Types → Except Err (List TypeField × Types)
  | [], typesToAdd, typeMap => .ok (typesToAdd, typeMap)
  | (fieldName, walk) :: fields, typesToAdd, typeMap => do
    let (type, typeMap) ← walk (prefixForSubField path fieldName) typeMap
    addFields path fields (typesToAdd ++ (type.map (TypeField.mk fieldName)).toList) typeMap

/-- The fields in the order of their keys, the last one first. types.go:224-244 -/
def sortedJSONKeys {α : Type} (fields : List (String × α)) : List (String × α) :=
  fields.insertionSort fun f g => g.1 ≤ f.1

/-- types.go:143-220 -/
def recursivelyAddTypesToRoot (typeMap : Types) (rootType path : String)
    (fields : List (String × Walk)) : Except Err (String × Types) := do
  let (typesToAdd, typeMap) ← addFields path (sortedJSONKeys fields) [] typeMap
  addTypesToRoot typeMap (typeDefForPrefix path rootType) typesToAdd

/-- What is done for an array, by its first element. -/
def collectionWalk (walk : Walk) : Walk := fun path typeMap => do
  let (type, typeMap) ← walk path typeMap
  return (type.map (· ++ "[]"), typeMap)

-- the values first, so that the recursion is on them and not on their order
mutual

/-- What is done for a field, or the first element of an array. -/
def valueWalk (rootType : String) (isCollection : Bool) : Json → Walk
  | .object fields => fun path typeMap => do
    let (typeDef, typeMap) ←
      recursivelyAddTypesToRoot typeMap rootType path (fieldWalks rootType fields)
    return (some (sanitizeTypedef typeDef), typeMap)
  | .array [] => fun _ typeMap => .ok (if isCollection then none else some "string[]", typeMap)
  | .array (first :: _) =>
    if isCollection then fun _ typeMap => .ok (none, typeMap)
    else collectionWalk (valueWalk rootType true first)
  | v => fun _ typeMap => .ok (getEthTypeForJSON v, typeMap)

def fieldWalks (rootType : String) : List (String × Json) → List (String × Walk)
  | [] => []
  | (name, v) :: fields => (name, valueWalk rootType false v) :: fieldWalks rootType fields

end

/-- The string in a value that may be missing. -/
def str : Option Json → String
  | some (.string s) => s
  | _ => ""

/-- types.go:115-128 -/
def msgRootType (msg : Fields) : Except Err String :=
  let msgType := str (get msg "type")
  if msgType = "" then
    .error (errInvalidType.wrapf "malformed message type value, expected type string" [])
  else .ok (typePrefix ++ .ofList ((msgType.toList.splitOn '/').getLastD []))

def addMsgTypeDefToTxSchema (eip712Types : Types) (msgField msgTypeDef : String) : Types :=
  set eip712Types txField ((get eip712Types txField).getD [] ++ [⟨msgField, msgTypeDef⟩])

/-- types.go:91-111 -/
def addMsgTypesToRoot (eip712Types : Types) (msgField : String) :
    Option Json → Except Err Types
  | some (.object msg) => do
    let rootType ← msgRootType msg
    let (msgTypeDef, eip712Types) ←
      recursivelyAddTypesToRoot eip712Types rootType rootPrefix (fieldWalks rootType msg)
    return addMsgTypeDefToTxSchema eip712Types msgField msgTypeDef
  | _ => .error (errInvalidRequest.wrapf "message is not valid JSON, cannot parse types" [])

/-- The fields of a transaction without its messages. -/
def txFields : List TypeField :=
  [⟨"account_number", "string"⟩, ⟨"chain_id", "string"⟩, ⟨"fee", "Fee"⟩, ⟨"memo", "string"⟩,
    ⟨"sequence", "string"⟩]

/-- types.go:35-87 -/
def createEIP712Types (payload : Fields) : ℕ → Except Err Types
  | 0 => .ok
      [("EIP712Domain", [⟨"name", "string"⟩, ⟨"version", "string"⟩, ⟨"chainId", "uint256"⟩,
          ⟨"verifyingContract", "string"⟩, ⟨"salt", "string"⟩]),
        (txField, txFields), ("Fee", [⟨"amount", "Coin[]"⟩, ⟨"gas", "string"⟩]),
        ("Coin", [⟨"denom", "string"⟩, ⟨"amount", "string"⟩])]
  | n + 1 => do
    let eip712Types ← createEIP712Types payload n
    addMsgTypesToRoot eip712Types (msgFieldForIndex n) (get payload (msgFieldForIndex n))

end TacEvm.Eip712
