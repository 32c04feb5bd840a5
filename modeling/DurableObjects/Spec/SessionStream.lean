import Mathlib.Algebra.GroupWithZero.Nat
import Mathlib.Data.List.Basic
import DurableObjects.Lib.Utf8Stream
import DurableObjects.Spec.Session

/-! The Node side of an actor session, as a reader: the socket hands its bytes on in chunks
of any size, decoded as UTF-8, and `acceptChunk` cuts the text into documents. A text that
was decoded is a list of characters. -/

namespace LDO

structure SessionStream where
  decoder : Utf8.Decoder
  buffer : List Char
  /-- what `handle` was called with -/
  handled : List (List Char)
  failed : Bool

def SessionStream.initial : SessionStream := ⟨.idle, [], [], false⟩

/-- `Buffer.byteLength` -/
def byteLength (text : List Char) : ℕ := (text.map Char.utf8Size).sum

theorem byteLength_cons (c : Char) (cs : List Char) : byteLength (c :: cs) = c.utf8Size + byteLength cs := by
  simp [byteLength]

theorem byteLength_append (xs ys : List Char) : byteLength (xs ++ ys) = byteLength xs + byteLength ys := by
  simp [byteLength]

/-- The loop of `acceptChunk`: the documents it takes from the buffer, and what it leaves. -/
def takeDocuments (buffer : List Char) : List (List Char) × List Char :=
  if h : '\n' ∈ buffer then
    let newline := buffer.idxOf '\n'
    let taken := takeDocuments (buffer.drop (newline + 1))
    (buffer.take newline :: taken.1, taken.2)
  else ([], buffer)
termination_by buffer.length
decreasing_by
  have hlength := List.length_pos_of_mem h
  rw [List.length_drop]
  omega

namespace SessionStream

def acceptChunk (s : SessionStream) (chunk : List Char) : SessionStream :=
  let buffer := s.buffer ++ chunk
  if maxMessageBytes < byteLength buffer then { s with buffer := buffer, failed := true }
  else { s with buffer := (takeDocuments buffer).2, handled := s.handled ++ (takeDocuments buffer).1 }

/-- A socket that was destroyed emits nothing more, and a chunk that completes no character
is not emitted. -/
def receive (s : SessionStream) (chunk : List UInt8) : SessionStream :=
  if s.failed then s
  else
    let decoded := s.decoder.feed chunk
    if decoded.2 = [] then { s with decoder := decoded.1 }
    else acceptChunk { s with decoder := decoded.1 } decoded.2

def receiveAll (chunks : List (List UInt8)) : SessionStream := chunks.foldl receive initial

end SessionStream

end LDO
