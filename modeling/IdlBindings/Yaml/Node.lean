import IdlBindings.Yaml.Token

/-
This file builds the node that the tokens of a document describe. A node has no tag and no anchor,
and no node stands for another.
-/

namespace IdlBindings.Yaml

inductive Node where
  | scalar (plain : Bool) (text : String)
  | sequence (elements : List Node)
  | mapping (members : List (Node × Node))

namespace Node

/-- What stands where nothing is written. -/
def empty : Node := scalar true ""

def endsBlockElement : List Token → Bool
  | .blockEntry :: _ | .blockEnd :: _ => true
  | _ => false

def endsBlockMember : List Token → Bool
  | .key :: _ | .value :: _ | .blockEnd :: _ => true
  | _ => false

def endsBareElement (tokens : List Token) : Bool :=
  endsBlockMember tokens || endsBlockElement tokens

def endsFlowElement : List Token → Bool
  | .flowEntry :: _ | .flowSequenceEnd :: _ => true
  | _ => false

def endsFlowMember : List Token → Bool
  | .flowEntry :: _ | .flowMappingEnd :: _ => true
  | _ => false

def startsValue : List Token → Bool
  | .value :: _ => true
  | _ => false

/-- Why tokens are not as they should be: the text is malformed, or there is no more to see. -/
def faultAt : List Token → Fault
  | .overrun :: _ => .overrun
  | _ => .malformed

/-- The tokens of the next element of a flow collection: a comma parts it from the one before. -/
def nextInFlow (isFirst : Bool) (tokens : List Token) : Except Fault (List Token) :=
  if isFirst then .ok tokens
  else
    match tokens with
    | .flowEntry :: rest => .ok rest
    | _ => .error (faultAt tokens)

mutual

/-- One node. Entries without a sequence start make a sequence only where a mapping has its keys and
values. -/
def read : Nat → (inBlock inMapping : Bool) → List Token → Except Fault (Node × List Token)
  | 0, _, _, _ => .error .malformed
  | fuel + 1, inBlock, inMapping, tokens =>
      match tokens with
      | .scalar plain text :: rest => .ok (scalar plain text, rest)
      | .flowSequenceStart :: rest => do
          let (elements, after) ← readFlowElements fuel true rest
          return (sequence elements, after)
      | .flowMappingStart :: rest => do
          let (members, after) ← readFlowMembers fuel true rest
          return (mapping members, after)
      | .blockEntry :: _ =>
          if inMapping then do
            let (elements, after) ← readBareElements fuel tokens
            return (sequence elements, after)
          else .error (faultAt tokens)
      | .blockSequenceStart :: rest =>
          if inBlock then do
            let (elements, after) ← readBlockElements fuel rest
            return (sequence elements, after)
          else .error (faultAt tokens)
      | .blockMappingStart :: rest =>
          if inBlock then do
            let (members, after) ← readBlockMembers fuel rest
            return (mapping members, after)
          else .error (faultAt tokens)
      | _ => .error (faultAt tokens)

/-- A node that is missing where its place ends. -/
def readUnless :
    Nat → (isMissing inBlock inMapping : Bool) → List Token → Except Fault (Node × List Token)
  | 0, _, _, _, _ => .error .malformed
  | fuel + 1, isMissing, inBlock, inMapping, tokens =>
      if isMissing then .ok (empty, tokens) else read fuel inBlock inMapping tokens

def readBlockElements : Nat → List Token → Except Fault (List Node × List Token)
  | 0, _ => .error .malformed
  | fuel + 1, tokens =>
      match tokens with
      | .blockEnd :: after => .ok ([], after)
      | .blockEntry :: rest => do
          let (element, next) ← readUnless fuel (endsBlockElement rest) true false rest
          let (elements, after) ← readBlockElements fuel next
          return (element :: elements, after)
      | _ => .error (faultAt tokens)

def readBareElements : Nat → List Token → Except Fault (List Node × List Token)
  | 0, _ => .error .malformed
  | fuel + 1, tokens =>
      match tokens with
      | .blockEntry :: rest => do
          let (element, next) ← readUnless fuel (endsBareElement rest) true false rest
          let (elements, after) ← readBareElements fuel next
          return (element :: elements, after)
      | _ => .ok ([], tokens)

def readBlockMembers : Nat → List Token → Except Fault (List (Node × Node) × List Token)
  | 0, _ => .error .malformed
  | fuel + 1, tokens =>
      match tokens with
      | .blockEnd :: after => .ok ([], after)
      | .key :: rest => do
          let (key, afterKey) ← readUnless fuel (endsBlockMember rest) true true rest
          let (value, next) ← readBlockValue fuel afterKey
          let (members, after) ← readBlockMembers fuel next
          return ((key, value) :: members, after)
      | _ => .error (faultAt tokens)

def readBlockValue : Nat → List Token → Except Fault (Node × List Token)
  | 0, _ => .error .malformed
  | fuel + 1, tokens =>
      match tokens with
      | .value :: rest => readUnless fuel (endsBlockMember rest) true true rest
      | _ => .ok (empty, tokens)

/-- An element with a key is a mapping of one member. -/
def readFlowElements : Nat → (isFirst : Bool) → List Token → Except Fault (List Node × List Token)
  | 0, _, _ => .error .malformed
  | fuel + 1, isFirst, tokens =>
      match tokens with
      | .flowSequenceEnd :: after => .ok ([], after)
      | _ => do
          let element ← nextInFlow isFirst tokens
          match element with
          | .flowSequenceEnd :: after => return ([], after)
          | .key :: rest => do
              let (key, afterKey) ← readPairKey fuel rest
              let (value, next) ← readFlowValue fuel (endsFlowElement) afterKey
              let (elements, after) ← readFlowElements fuel false next
              return (mapping [(key, value)] :: elements, after)
          | _ => do
              let (node, next) ← read fuel false false element
              let (elements, after) ← readFlowElements fuel false next
              return (node :: elements, after)

/-- A missing key takes the token that stands in its place. -/
def readPairKey : Nat → List Token → Except Fault (Node × List Token)
  | 0, _ => .error .malformed
  | fuel + 1, tokens =>
      if startsValue tokens || endsFlowElement tokens then .ok (empty, tokens.drop 1)
      else read fuel false false tokens

def readFlowValue :
    Nat → (ends : List Token → Bool) → List Token → Except Fault (Node × List Token)
  | 0, _, _ => .error .malformed
  | fuel + 1, ends, tokens =>
      match tokens with
      | .value :: rest => readUnless fuel (ends rest) false false rest
      | _ => .ok (empty, tokens)

/-- An element without a key is a key without a value. -/
def readFlowMembers :
    Nat → (isFirst : Bool) → List Token → Except Fault (List (Node × Node) × List Token)
  | 0, _, _ => .error .malformed
  | fuel + 1, isFirst, tokens =>
      match tokens with
      | .flowMappingEnd :: after => .ok ([], after)
      | _ => do
          let member ← nextInFlow isFirst tokens
          match member with
          | .flowMappingEnd :: after => return ([], after)
          | .key :: rest => do
              let (key, afterKey) ←
                readUnless fuel (startsValue rest || endsFlowMember rest) false false rest
              let (value, next) ← readFlowValue fuel (endsFlowMember) afterKey
              let (members, after) ← readFlowMembers fuel false next
              return ((key, value) :: members, after)
          | _ => do
              let (key, next) ← read fuel false false member
              let (members, after) ← readFlowMembers fuel false next
              return ((key, empty) :: members, after)

end

/-- There are at most two steps for each token. -/
def fuelFor (tokens : List Token) : Nat := 2 * tokens.length + 4

/-- The content of a document that starts with a mark. -/
def readMarked (tokens : List Token) : Except Fault (Node × List Token) :=
  match tokens with
  | [] | .documentStart :: _ | .documentEnd :: _ => .ok (empty, tokens)
  | _ => read (fuelFor tokens) true false tokens

/-- The end of a document shows only by the token after it. -/
def endDocument (result : Node × List Token) : Except Fault (Node × List Token) :=
  match result.2 with
  | .overrun :: _ => .error .overrun
  | _ => .ok result

/-- The node of the first document, with the tokens after it. -/
def readFirst (tokens : List Token) : Except Fault (Node × List Token) :=
  match tokens with
  | [] => .ok (empty, [])
  | .documentStart :: content => (readMarked content).bind endDocument
  | _ => (read (fuelFor tokens) true false tokens).bind endDocument

def isDocumentEnd (token : Token) : Bool := token == .documentEnd

/-- There is only one document, so a second one is read in vain. -/
def finish (tokens : List Token) : Except Fault Unit :=
  match tokens.dropWhile isDocumentEnd with
  | [] => .ok ()
  | .documentStart :: content => do
      let _ ← (readMarked content).bind endDocument
      .error .malformed
  | rest => .error (faultAt rest)

end Node

end IdlBindings.Yaml
