import Mathlib.Data.List.Infix

/-!
# Buffered readers of tokio

A reader holds bytes that came with an earlier read and were not asked for yet.
What further reads of the stream below it bring is given as the list of their
results, so every way to cut the input into pieces is a different list.
-/

namespace Scuttled.Rust

/-- What the reads of a stream return, one after the other; a read without bytes is
the end of the stream. -/
abbrev ByteStream (ε : Type) := List (Except ε (List UInt8))

def ByteStream.bytes {ε : Type} (stream : ByteStream ε) : List UInt8 :=
  stream.flatMap fun
    | .ok chunk => chunk
    | .error _ => []

structure BufReader (ε : Type) where
  buffer : List UInt8
  inner : ByteStream ε

def asBytes (text : String) : List UInt8 := text.toByteArray.data.toList

theorem asBytes_append (first second : String) :
    asBytes (first ++ second) = asBytes first ++ asBytes second := by
  rw [asBytes, String.toByteArray_append, ByteArray.data_append, Array.toList_append]
  rfl

theorem infix_asBytes {piece text : String} (hpiece : piece.toList <:+: text.toList) :
    asBytes piece <:+: asBytes text := by
  obtain ⟨before, after, htext⟩ := hpiece
  have hwhole : text = String.ofList before ++ piece ++ String.ofList after := by
    rw [← String.toList_inj, String.toList_append, String.toList_append, String.toList_ofList,
      String.toList_ofList, htext]
  rw [hwhole, asBytes_append, asBytes_append]
  exact ⟨_, _, rfl⟩

/-- The byte that ends a line. -/
def newline : UInt8 := 10

/-- A text begins with a line: the line with its end, and what is behind it. -/
def takeLine : List UInt8 → Option (List UInt8 × List UInt8)
  | [] => none
  | byte :: rest =>
      if byte = newline then some ([byte], rest)
      else (takeLine rest).map fun (line, behind) => (byte :: line, behind)

namespace BufReader

variable {ε : Type}

def new (inner : ByteStream ε) : BufReader ε where
  buffer := []
  inner := inner

/-- `into_inner`: what is in the buffer is lost. -/
def intoInner (reader : BufReader ε) : ByteStream ε := reader.inner

/-- `read_until` for the end of a line, with what was read before. -/
def readUntil (taken buffer : List UInt8) : ByteStream ε → Except ε (List UInt8) × BufReader ε
  | [] =>
      match takeLine buffer with
      | some (line, behind) => (.ok (taken ++ line), ⟨behind, []⟩)
      | none => (.ok (taken ++ buffer), ⟨[], []⟩)
  | read :: inner =>
      match takeLine buffer with
      | some (line, behind) => (.ok (taken ++ line), ⟨behind, read :: inner⟩)
      | none =>
          match read with
          | .error error => (.error error, ⟨[], inner⟩)
          | .ok [] => (.ok (taken ++ buffer), ⟨[], inner⟩)
          | .ok (byte :: chunk) => readUntil (taken ++ buffer) (byte :: chunk) inner

/-- `read_line`: the bytes up to the end of a line or of the stream, as text. -/
def readLine (invalid : ε) (reader : BufReader ε) : Except ε String × BufReader ε :=
  match readUntil [] reader.buffer reader.inner with
  | (.error error, rest) => (.error error, rest)
  | (.ok line, rest) =>
      match String.fromUTF8? ⟨line.toArray⟩ with
      | some text => (.ok text, rest)
      | none => (.error invalid, rest)

/-- The bytes that are still to come. -/
def pending (reader : BufReader ε) : List UInt8 := reader.buffer ++ reader.inner.bytes

/-- How much there is still to read. -/
def remaining (reader : BufReader ε) : Nat := reader.pending.length + reader.inner.length

end BufReader

/-! ## Lines -/

theorem append_of_takeLine {text line behind : List UInt8}
    (htake : takeLine text = some (line, behind)) : text = line ++ behind := by
  induction text generalizing line with
  | nil => cases htake
  | cons byte rest ih =>
      rw [takeLine] at htake
      split at htake
      · cases htake
        rfl
      · obtain ⟨⟨rest', behind'⟩, hrest, hpair⟩ := Option.map_eq_some_iff.mp htake
        cases hpair
        rw [ih hrest, List.cons_append]

theorem takeLine_append {text line behind : List UInt8}
    (htake : takeLine text = some (line, behind)) (more : List UInt8) :
    takeLine (text ++ more) = some (line, behind ++ more) := by
  induction text generalizing line with
  | nil => cases htake
  | cons byte rest ih =>
      rw [takeLine] at htake
      rw [List.cons_append, takeLine]
      split at htake
      · rename_i hend
        cases htake
        rw [if_pos hend]
      · rename_i hend
        obtain ⟨⟨rest', behind'⟩, hrest, hpair⟩ := Option.map_eq_some_iff.mp htake
        cases hpair
        rw [if_neg hend, ih hrest]
        rfl

/-- The text consists of whole lines. -/
def WholeLines (text : List UInt8) : Prop := text = [] ∨ ∃ start, text = start ++ [newline]

/-- A text of whole lines is empty, or begins with a line and goes on with whole
lines. -/
theorem WholeLines.takeLine {text : List UInt8} (hlines : WholeLines text) (hne : text ≠ []) :
    ∃ line behind, takeLine text = some (line, behind) ∧ WholeLines behind := by
  obtain ⟨start, rfl⟩ := hlines.resolve_left hne
  clear hlines hne
  induction start with
  | nil => exact ⟨[newline], [], rfl, .inl rfl⟩
  | cons byte rest ih =>
      rw [List.cons_append, Rust.takeLine]
      by_cases hend : byte = newline
      · rw [if_pos hend]
        exact ⟨[byte], rest ++ [newline], rfl, .inr ⟨rest, rfl⟩⟩
      · obtain ⟨line, behind, htake, hbehind⟩ := ih
        rw [if_neg hend, htake]
        exact ⟨byte :: line, behind, rfl, hbehind⟩

namespace BufReader

variable {ε : Type}

/-! ## What reading takes -/

theorem readUntil_of_takeLine {buffer line behind : List UInt8}
    (htake : takeLine buffer = some (line, behind)) (taken : List UInt8) (inner : ByteStream ε) :
    readUntil taken buffer inner = (.ok (taken ++ line), ⟨behind, inner⟩) := by
  cases inner with
  | nil => simp only [readUntil, htake]
  | cons read inner => simp only [readUntil, htake]

theorem readUntil_of_takeLine_eq_none {buffer : List UInt8} (htake : takeLine buffer = none)
    (taken : List UInt8) {chunk : List UInt8} (hchunk : chunk ≠ []) (inner : ByteStream ε) :
    readUntil taken buffer (.ok chunk :: inner) =
      readUntil (taken ++ buffer) chunk inner := by
  obtain ⟨byte, rest, rfl⟩ := List.exists_cons_of_ne_nil hchunk
  simp only [readUntil, htake]

/-- What is read was to come, the rest is still to come, and it comes with reads of
the stream below. -/
theorem append_of_readUntil {taken buffer line : List UInt8} {inner : ByteStream ε}
    {rest : BufReader ε} (hread : readUntil taken buffer inner = (.ok line, rest)) :
    line ++ rest.pending = taken ++ buffer ++ inner.bytes ∧
      rest.inner.length ≤ inner.length := by
  induction inner generalizing taken buffer with
  | nil =>
      cases htake : takeLine buffer with
      | some found =>
          rw [readUntil_of_takeLine htake] at hread
          cases hread
          simp [append_of_takeLine htake, pending]
      | none =>
          simp only [readUntil, htake] at hread
          cases hread
          simp [pending]
  | cons read inner ih =>
      cases htake : takeLine buffer with
      | some found =>
          rw [readUntil_of_takeLine htake] at hread
          cases hread
          simp [append_of_takeLine htake, pending]
      | none =>
          rcases read with error | _ | ⟨byte, chunk⟩
          · simp only [readUntil, htake] at hread
            cases hread
          · simp only [readUntil, htake] at hread
            cases hread
            simp [pending, ByteStream.bytes]
          · rw [readUntil_of_takeLine_eq_none htake taken (List.cons_ne_nil _ _)] at hread
            obtain ⟨happend, hlength⟩ := ih hread
            rw [happend]
            exact ⟨by simp [ByteStream.bytes], Nat.le_succ_of_le hlength⟩

theorem asBytes_of_fromUTF8 {bytes : List UInt8} {text : String}
    (htext : String.fromUTF8? ⟨bytes.toArray⟩ = some text) :
    asBytes text = bytes := by
  unfold String.fromUTF8? at htext
  split at htext
  · cases htext
    rfl
  · cases htext

theorem append_of_readLine {invalid : ε} {reader rest : BufReader ε} {line : String}
    (hread : reader.readLine invalid = (.ok line, rest)) :
    asBytes line ++ rest.pending = reader.pending ∧
      rest.inner.length ≤ reader.inner.length := by
  unfold readLine at hread
  split at hread
  · cases hread
  · rename_i bytes behind huntil
    split at hread
    · rename_i text htext
      cases hread
      rw [asBytes_of_fromUTF8 htext]
      exact append_of_readUntil huntil
    · cases hread

theorem remaining_lt_of_readLine {invalid : ε} {reader rest : BufReader ε} {line : String}
    (hread : reader.readLine invalid = (.ok line, rest)) (hne : line ≠ "") :
    rest.remaining < reader.remaining := by
  obtain ⟨happend, hinner⟩ := append_of_readLine hread
  have hpos : 0 < (asBytes line).length := by
    rw [List.length_pos_iff]
    intro hnil
    have hdata : line.toByteArray.data = (ByteArray.empty).data :=
      Array.toList_inj.mp (hnil.trans rfl)
    exact hne (String.toByteArray_inj.mp (ByteArray.ext hdata))
  have hlength := congrArg List.length happend
  rw [List.length_append] at hlength
  unfold remaining
  omega

/-! ## Readers that differ in one place -/

/-- The readers differ in what comes after whole lines in one piece: it stands at the
end of the buffer, or at the end of a piece that is still to come. -/
inductive DifferBehind (behind behind' : List UInt8) (after : ByteStream ε) :
    BufReader ε → BufReader ε → Prop where
  | buffered {front : List UInt8} (hfront : WholeLines front) :
      DifferBehind behind behind' after ⟨front ++ behind, after⟩ ⟨front ++ behind', after⟩
  | coming {buffer chunk : List UInt8} (before : ByteStream ε) (hchunk : WholeLines chunk)
      (hne : chunk ≠ []) :
      DifferBehind behind behind' after ⟨buffer, before ++ .ok (chunk ++ behind) :: after⟩
        ⟨buffer, before ++ .ok (chunk ++ behind') :: after⟩

variable {behind behind' : List UInt8} {after : ByteStream ε} {reader reader' : BufReader ε}

/-- Until the place is reached the readers bring the same. -/
theorem DifferBehind.readUntil_coming {chunk : List UInt8} (hchunk : WholeLines chunk)
    (hne : chunk ≠ []) (before : ByteStream ε) (taken buffer : List UInt8) :
    (readUntil taken buffer (before ++ .ok (chunk ++ behind) :: after)).1 =
        (readUntil taken buffer (before ++ .ok (chunk ++ behind') :: after)).1 ∧
      DifferBehind behind behind' after
        (readUntil taken buffer (before ++ .ok (chunk ++ behind) :: after)).2
        (readUntil taken buffer (before ++ .ok (chunk ++ behind') :: after)).2 := by
  induction before generalizing taken buffer with
  | nil =>
      rw [List.nil_append, List.nil_append]
      cases htake : takeLine buffer with
      | some found =>
          rw [readUntil_of_takeLine htake, readUntil_of_takeLine htake]
          exact ⟨rfl, .coming [] hchunk hne⟩
      | none =>
          obtain ⟨line, rest, hline, hrest⟩ := hchunk.takeLine hne
          rw [readUntil_of_takeLine_eq_none htake taken (List.append_ne_nil_of_left_ne_nil hne _),
            readUntil_of_takeLine_eq_none htake taken (List.append_ne_nil_of_left_ne_nil hne _),
            readUntil_of_takeLine (takeLine_append hline behind),
            readUntil_of_takeLine (takeLine_append hline behind')]
          exact ⟨rfl, .buffered hrest⟩
  | cons read before ih =>
      rw [List.cons_append, List.cons_append]
      cases htake : takeLine buffer with
      | some found =>
          rw [readUntil_of_takeLine htake, readUntil_of_takeLine htake]
          exact ⟨rfl, .coming (read :: before) hchunk hne⟩
      | none =>
          rcases read with error | _ | ⟨byte, rest⟩
          · simp only [readUntil, htake]
            exact ⟨trivial, .coming before hchunk hne⟩
          · simp only [readUntil, htake]
            exact ⟨trivial, .coming before hchunk hne⟩
          · rw [readUntil_of_takeLine_eq_none htake taken (List.cons_ne_nil _ _),
              readUntil_of_takeLine_eq_none htake taken (List.cons_ne_nil _ _)]
            exact ih _ _

/-- The place is reached, or both readers bring the same line and differ as before. -/
theorem DifferBehind.readLine (hdiffer : DifferBehind behind behind' after reader reader')
    (invalid : ε) :
    reader = ⟨behind, after⟩ ∨
      (reader.readLine invalid).1 = (reader'.readLine invalid).1 ∧
        DifferBehind behind behind' after (reader.readLine invalid).2
          (reader'.readLine invalid).2 := by
  have hsame {reader reader' : BufReader ε}
      (huntil : (readUntil [] reader.buffer reader.inner).1 =
        (readUntil [] reader'.buffer reader'.inner).1 ∧
        DifferBehind behind behind' after (readUntil [] reader.buffer reader.inner).2
          (readUntil [] reader'.buffer reader'.inner).2) :
      (reader.readLine invalid).1 = (reader'.readLine invalid).1 ∧
        DifferBehind behind behind' after (reader.readLine invalid).2
          (reader'.readLine invalid).2 := by
    unfold BufReader.readLine
    generalize readUntil [] reader.buffer reader.inner = first at huntil
    generalize readUntil [] reader'.buffer reader'.inner = second at huntil
    obtain ⟨result, rest⟩ := first
    obtain ⟨result', rest'⟩ := second
    obtain ⟨hresult, hrest⟩ := huntil
    dsimp only at hresult hrest
    subst hresult
    cases result with
    | error error => exact ⟨rfl, hrest⟩
    | ok bytes =>
        dsimp only
        cases String.fromUTF8? ⟨bytes.toArray⟩ with
        | some text => exact ⟨rfl, hrest⟩
        | none => exact ⟨rfl, hrest⟩
  cases hdiffer with
  | @buffered front hfront =>
      by_cases hnil : front = []
      · subst hnil
        exact .inl rfl
      · obtain ⟨line, rest, hline, hrest⟩ := hfront.takeLine hnil
        refine .inr (hsame ?_)
        dsimp only
        rw [readUntil_of_takeLine (takeLine_append hline behind),
          readUntil_of_takeLine (takeLine_append hline behind')]
        exact ⟨rfl, .buffered hrest⟩
  | @coming buffer chunk before hchunk hne =>
      exact .inr (hsame (readUntil_coming hchunk hne before [] buffer))

theorem DifferBehind.of_reached (hdiffer : DifferBehind behind behind' after reader reader')
    (hreached : reader = ⟨behind, after⟩) : reader' = ⟨behind', after⟩ := by
  cases hdiffer with
  | buffered hfront =>
      rw [BufReader.mk.injEq, List.append_left_eq_self] at hreached
      rw [hreached.1, List.nil_append]
  | coming before hchunk hne =>
      have hlength := congrArg (fun reader => reader.inner.length) hreached
      simp at hlength
      omega

end BufReader

end Scuttled.Rust
