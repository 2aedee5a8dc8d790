import BodyLength.Json.Token
/-!
# JSON texts as trees

A text is read into a `JsonNode` even if something is wrong with it: the fault then is part
of the tree, at the place where a reader that goes through the tree in order comes upon it.
A reader that is content with less than the whole text, or that finds fault with an earlier
value, never sees it.

The tree is built from tokens with a stack of what is still open.
-/

namespace BodyLength

/-- The key of a member. -/
structure JsonKey where
  name : String
  /-- The position behind the object if it ends with this key, or else before what follows. -/
  settled : JsonPosition

/-- How a list or an object ends. -/
inductive JsonTail where
  /-- With its bracket, behind which the position is. -/
  | closed (stop : JsonPosition)
  | broken (e : JsonError)

inductive JsonNode where
  | scalar (x : JsonScalar) (start stop : JsonPosition)
  | array (start : JsonPosition) (items : List JsonNode) (tail : JsonTail)
  | object (start : JsonPosition) (members : List (JsonKey × JsonNode)) (tail : JsonTail)
  /-- No value; `peek` is the position behind the byte that stands in its place. -/
  | fault (peek : JsonPosition) (e : JsonError)

namespace JsonNode

/-- The position behind the first byte. -/
def peek : JsonNode → JsonPosition
  | scalar _ start _ => start.right 1
  | array start _ _ => start.right 1
  | object start _ _ => start.right 1
  | fault peek _ => peek

end JsonNode

/-- A list or an object that is still open; what it holds so far comes in reverse. -/
inductive JsonFrame where
  | array (start : JsonPosition) (items : List JsonNode)
  | object (start : JsonPosition) (members : List (JsonKey × JsonNode))
  /-- An object with a key whose value is still to come. -/
  | member (start : JsonPosition) (members : List (JsonKey × JsonNode)) (key : JsonKey)

namespace JsonFrame

/-- The list or object with `tail` for its end; `last` is the value that was being read. -/
def node (tail : JsonTail) (last : Option JsonNode) : JsonFrame → JsonNode
  | array start items => .array start (last.toList ++ items).reverse tail
  | object start members => .object start members.reverse tail
  | member start members key =>
    .object start ((last.toList.map (key, ·)) ++ members).reverse tail

/-- The frame with one more value. -/
def add (n : JsonNode) : JsonFrame → JsonFrame
  | array start items => array start (n :: items)
  | object start members => object start members
  | member start members key => object start ((key, n) :: members)

/-- The tree when nothing can be read behind `n`, because of `e`. -/
def unwind (e : JsonError) (n : JsonNode) : List JsonFrame → JsonNode
  | [] => n
  | f :: fs => unwind e (f.node (.broken e) (some n)) fs

end JsonFrame

/-- What must come next. -/
inductive JsonState where
  | value
  /-- The first item of a list, or its end. -/
  | firstItem
  /-- An item, behind a comma. -/
  | item
  /-- The first key of an object, or its end. -/
  | firstKey
  /-- A key, behind a comma. -/
  | key
  | colon (key : JsonKey)
  /-- A comma, or the end of the innermost list or object. -/
  | separator

/-- What reading one token came to. -/
inductive JsonStep where
  | next (frames : List JsonFrame) (state : JsonState)
  /-- The tree is complete. -/
  | complete (n : JsonNode)
  /-- The tree breaks off. -/
  | stop (n : JsonNode)

namespace JsonStep

/-- The number of open brackets at which reading stops. -/
def depthLimit : Nat := 128

/-- Stops with a fault in place of a value. -/
def stopAtValue (frames : List JsonFrame) (f : JsonFault) (p : JsonPosition) : JsonNode :=
  JsonFrame.unwind ⟨f, p⟩ (.fault p ⟨f, p⟩) frames

/-- Stops inside the innermost list or object. -/
def stopInside (frames : List JsonFrame) (f : JsonFault) (p : JsonPosition) : JsonNode :=
  match frames with
  | [] => .fault p ⟨f, p⟩
  | x :: xs => JsonFrame.unwind ⟨f, p⟩ (x.node (.broken ⟨f, p⟩) none) xs

/-- Goes on behind a value. -/
def afterValue (n : JsonNode) : List JsonFrame → JsonStep
  | [] => complete n
  | f :: fs => next (f.add n :: fs) .separator

/-- Goes on behind the end of the innermost list or object. -/
def close (stop : JsonPosition) : List JsonFrame → JsonStep
  | [] => .stop (stopInside [] .expectedValue stop)
  | f :: fs => afterValue (f.node (.closed stop) none) fs

/-- Opens a list or an object, whose node is `n` if that is one too many. -/
def enter (frames : List JsonFrame) (f : JsonFrame) (state : JsonState) (peek : JsonPosition) :
    JsonStep :=
  if depthLimit ≤ frames.length + 1 then .stop (stopInside (f :: frames) .tooDeep peek)
  else next (f :: frames) state

/-- Reads a token where a value must come. -/
def value (frames : List JsonFrame) (t : JsonToken) : JsonStep :=
  let peek := t.start.right 1
  match t.kind with
  | .leftBracket => enter frames (.array t.start []) .firstItem peek
  | .leftBrace => enter frames (.object t.start []) .firstKey peek
  | .scalar x => afterValue (.scalar x t.start t.stop) frames
  | .broken _ e => .stop (JsonFrame.unwind e (.fault peek e) frames)
  | _ => .stop (stopAtValue frames .expectedValue peek)

/-- Reads a token where a key must come. `settled` is the position to which the text is read
when the object is given up behind the key. -/
def key (frames : List JsonFrame) (t : JsonToken) (settled : JsonPosition) : JsonStep :=
  match t.kind with
  | .scalar (.text name) => next frames (.colon ⟨name, settled⟩)
  | .broken true e => .stop (stopInside frames e.fault e.position)
  | _ => .stop (stopInside frames .keyNotString (t.start.right 1))

/-- The frames while the value of a key is read. -/
def awaiting (key : JsonKey) : List JsonFrame → List JsonFrame
  | .object start members :: fs => .member start members key :: fs
  | fs => fs

/-- Reads a token. `settled` is where the next token begins, or ends if it closes an object. -/
def ofToken (frames : List JsonFrame) (state : JsonState) (t : JsonToken)
    (settled : JsonPosition) : JsonStep :=
  let peek := t.start.right 1
  match state, t.kind with
  | .value, _ => value frames t
  | .firstItem, .rightBracket => close t.stop frames
  | .firstItem, _ => value frames t
  | .item, .rightBracket => stop (stopInside frames .trailingComma peek)
  | .item, _ => value frames t
  | .firstKey, .rightBrace => close t.stop frames
  | .firstKey, _ => key frames t settled
  | .key, .rightBrace => stop (stopInside frames .trailingComma peek)
  | .key, _ => key frames t settled
  | .colon k, .colon => next (awaiting k frames) .value
  | .colon k, _ => stop (stopAtValue (awaiting k frames) .expectedColon peek)
  | .separator, kind =>
    match frames, kind with
    | .array _ _ :: _, .comma => next frames .item
    | .array _ _ :: _, .rightBracket => close t.stop frames
    | .array _ _ :: _, _ => stop (stopInside frames .expectedCommaOrBracket peek)
    | _, .comma => next frames .key
    | _, .rightBrace => close t.stop frames
    | _, _ => stop (stopInside frames .expectedCommaOrBrace peek)

/-- The tree of a text that ends early. -/
def atEnd (frames : List JsonFrame) (finish : JsonPosition) : JsonState → JsonNode
  | .value => stopAtValue frames .endInValue finish
  | .item => stopAtValue frames .endInValue finish
  | .firstItem => stopInside frames .endInList finish
  | .firstKey => stopInside frames .endInObject finish
  | .key => stopInside frames .endInValue finish
  | .colon k => stopAtValue (awaiting k frames) .endInObject finish
  | .separator =>
    match frames with
    | .array _ _ :: _ => stopInside frames .endInList finish
    | _ => stopInside frames .endInObject finish

end JsonStep

/-- A text that has been read. -/
structure JsonDocument where
  root : JsonNode
  /-- Where something follows the value, if anything does. -/
  excess : Option JsonPosition

namespace JsonDocument

/-- Where the token at the front of a list begins, or ends if it closes an object. -/
def settledAt (finish : JsonPosition) : List JsonToken → JsonPosition
  | [] => finish
  | t :: _ =>
    match t.kind with
    | .rightBrace => t.stop
    | _ => t.start

/-- Reads the tokens of a text that ends at `finish`. -/
def ofTokens (finish : JsonPosition) (frames : List JsonFrame) (state : JsonState) :
    List JsonToken → JsonDocument
  | [] => ⟨JsonStep.atEnd frames finish state, none⟩
  | t :: ts =>
    match JsonStep.ofToken frames state t (settledAt finish ts) with
    | .next frames state => ofTokens finish frames state ts
    | .complete n => ⟨n, ts.head?.map fun t => t.start.right 1⟩
    | .stop n => ⟨n, none⟩

def ofText (text : String) : JsonDocument :=
  let (tokens, finish) := JsonToken.scan {} text.toList
  ofTokens finish [] .value tokens

/-- Reads the whole of a text as a value. -/
def decode {α : Type} (reader : JsonNode → Except JsonError α) (text : String) :
    Except JsonError α := do
  let document := ofText text
  let x ← reader document.root
  match document.excess with
  | none => .ok x
  | some p => .error ⟨.trailingCharacters, p⟩

end JsonDocument

end BodyLength
