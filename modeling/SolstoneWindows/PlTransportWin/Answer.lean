import SolstoneWindows.PlTransportWin.Credential

/-!
# The file with the owner's answer

`crates/pl-transport-win/src/answer.rs`. A slice that ends before it begins panics, which is `none`
here. The offsets are counted in characters: all that is cut off is ASCII.
-/

set_option autoImplicit false

namespace SolstoneWindows.PlTransportWin

def isValidDigest (s : List Char) : Bool :=
  s.isEmpty || (s.length == 64 && s.all fun c => c.isDigit || ('a' ≤ c && c ≤ 'f'))

/-- Up to the confirmed digest. -/
def answerStart : List Char := "\x7b\"confirmed\":\"".toList

/-- Between the digests. -/
def answerMiddle : List Char := "\",\"rejected\":\"".toList

/-- After the rejected digest. -/
def answerEnd : List Char := "\"\x7d".toList

/-- `String::into_bytes`. -/
def textBytes (s : List Char) : List UInt8 := (String.ofList s).toUTF8.data.toList

def encodeAnswer (state : AnswerState) : Except String (List UInt8) :=
  if !isValidDigest state.confirmed.toList || !isValidDigest state.rejected.toList then
    .error "invalid digest format in answer state"
  else
    .ok (textBytes (answerStart ++ state.confirmed.toList ++ answerMiddle ++
      state.rejected.toList ++ answerEnd ++ ['\n']))

/-- `str::find`, with what stands before the first occurrence and what stands after it. -/
def findText (needle : List Char) : List Char → Option (List Char × List Char)
  | [] => if needle.isEmpty then some ([], []) else none
  | c :: s =>
    if needle.isPrefixOf (c :: s) then some ([], (c :: s).drop needle.length)
    else (findText needle s).map fun (before, after) => (c :: before, after)

def parseAnswer (bytes : List UInt8) : Option (Except String AnswerState) :=
  match String.fromUTF8? ⟨bytes.toArray⟩ with
  | none => some (.error "invalid utf-8")
  | some text =>
    if text.toList.getLast? ≠ some '\n' then some (.error "missing trailing newline")
    else
      let s := text.toList.dropLast
      let stop := s.length - answerEnd.length
      if !answerStart.isPrefixOf s || !answerEnd.isSuffixOf s then
        some (.error "malformed json shape")
      else if stop < answerStart.length then none
      else
        match findText answerMiddle ((s.take stop).drop answerStart.length) with
        | none => some (.error "missing rejected field delimiter")
        | some (confirmed, rejected) =>
          if !isValidDigest confirmed || !isValidDigest rejected then
            some (.error "malformed digest field in answer")
          else some (.ok ⟨String.ofList confirmed, String.ofList rejected⟩)

/-- The answer file, and those that were set aside, by their nonces. -/
structure AnswerFiles where
  answer : Option (List UInt8)
  unreadable : List (Nat × List UInt8)
  deriving DecidableEq

/-- `moved` and `written` say how the move to the evidence name and the write of the new file
end. -/
def readAnswerOrReset (files : AnswerFiles) (nonce : Nat) (moved written : Except String Unit) :
    Option (Except String (Option AnswerState) × AnswerFiles) :=
  match files.answer with
  | none => some (.ok none, files)
  | some bytes => do
    match ← parseAnswer bytes with
    | .ok state => some (.ok (some state), files)
    | .error _ =>
      match moved with
      | .error e => some (.error e, files)
      | .ok () =>
        let unreadable := (nonce, bytes) :: files.unreadable
        match written, encodeAnswer {} with
        | .ok (), .ok empty => some (.ok (some {}), ⟨some empty, unreadable⟩)
        | .error e, _ | .ok (), .error e => some (.error e, ⟨none, unreadable⟩)

end SolstoneWindows.PlTransportWin
