import Scuttled.Rust.BufReader

/-!
# Lines, however the stream is cut

A stream brings its bytes in pieces.  Which lines a buffered reader makes of them
depends on the bytes alone, and a text that was written as lines is read back line by
line.
-/

namespace Scuttled.Rust

variable {ε : Type}

/-- The pieces of a stream one after the other, then what comes after them. -/
def ByteStream.cut (pieces : List (List UInt8)) (after : ByteStream ε) : ByteStream ε :=
  pieces.map .ok ++ after

/-! ## The end of a line in a text -/

theorem asBytes_eq_flatMap (text : String) :
    asBytes text = text.toList.flatMap String.utf8EncodeChar := by
  conv => lhs; rw [← String.ofList_toList (s := text)]
  rw [asBytes, String.toByteArray_ofList, List.utf8Encode, List.toList_data_toByteArray]

theorem newline_mem_utf8EncodeChar_iff {c : Char} :
    newline ∈ String.utf8EncodeChar c ↔ c = '\n' := by
  constructor
  · intro hmem
    have hbyte {n : Nat} (hn : newline = UInt8.ofNat n) : n % 256 = 10 := by
      have hnat := congrArg UInt8.toNat hn
      rw [UInt8.toNat_ofNat'] at hnat
      exact hnat.symm
    unfold String.utf8EncodeChar at hmem
    simp only at hmem
    split at hmem
    · rw [List.mem_singleton] at hmem
      have hvalue := hbyte hmem
      have hnat : c.toNat = 10 := by
        change c.val.toNat = 10
        omega
      exact Char.toNat_inj.mp (hnat.trans rfl)
    -- the bytes of a longer encoding are all above 127
    split at hmem
    · simp only [List.mem_cons, List.not_mem_nil, or_false] at hmem
      rcases hmem with hmem | hmem <;> have hvalue := hbyte hmem <;> omega
    split at hmem
    · simp only [List.mem_cons, List.not_mem_nil, or_false] at hmem
      rcases hmem with hmem | hmem | hmem <;> have hvalue := hbyte hmem <;> omega
    · simp only [List.mem_cons, List.not_mem_nil, or_false] at hmem
      rcases hmem with hmem | hmem | hmem | hmem <;> have hvalue := hbyte hmem <;> omega
  · rintro rfl
    decide

theorem newline_mem_asBytes_iff {text : String} : newline ∈ asBytes text ↔ '\n' ∈ text.toList := by
  rw [asBytes_eq_flatMap, List.mem_flatMap]
  constructor
  · rintro ⟨c, hc, hmem⟩
    rw [newline_mem_utf8EncodeChar_iff] at hmem
    exact hmem ▸ hc
  · intro hmem
    exact ⟨'\n', hmem, newline_mem_utf8EncodeChar_iff.mpr rfl⟩

theorem fromUTF8_asBytes (text : String) :
    String.fromUTF8? ⟨(asBytes text).toArray⟩ = some text := by
  have hbytes : (⟨(asBytes text).toArray⟩ : ByteArray) = text.toByteArray := by
    rw [asBytes, Array.toArray_toList]
  rw [hbytes, String.fromUTF8?, dif_pos (by exact text.isValidUTF8)]
  rfl

/-- The text ends with its only end of a line. -/
def IsLine (text : String) : Prop := ∃ start, text = start ++ "\n" ∧ '\n' ∉ start.toList

/-- The end of a line stands at the end of the text, if anywhere. -/
def AtMostALine (text : String) : Prop :=
  ∀ before after, text.toList = before ++ '\n' :: after → after = []

theorem takeLine_of_notMem {start : List UInt8} (hstart : newline ∉ start) (behind : List UInt8) :
    takeLine (start ++ newline :: behind) = some (start ++ [newline], behind) := by
  induction start with
  | nil => simp [takeLine]
  | cons byte rest ih =>
      obtain ⟨hbyte, hrest⟩ := List.ne_and_not_mem_of_not_mem_cons hstart
      rw [List.cons_append, takeLine, if_neg hbyte.symm, ih hrest]
      rfl

theorem IsLine.takeLine {text : String} (hline : IsLine text) (behind : List UInt8) :
    takeLine (asBytes text ++ behind) = some (asBytes text, behind) := by
  obtain ⟨start, rfl, hstart⟩ := hline
  have hbytes : asBytes (start ++ "\n") = asBytes start ++ [newline] := by
    rw [asBytes_append]
    rfl
  rw [hbytes, List.append_assoc, List.singleton_append]
  exact takeLine_of_notMem (fun hmem => hstart (newline_mem_asBytes_iff.mp hmem)) behind

theorem notMem_dropLast_of_takeLine {bytes line behind : List UInt8}
    (htake : takeLine bytes = some (line, behind)) : newline ∉ line.dropLast := by
  induction bytes generalizing line with
  | nil => cases htake
  | cons byte rest ih =>
      rw [takeLine] at htake
      split at htake
      · cases htake
        exact List.not_mem_nil
      · rename_i hbyte
        obtain ⟨⟨rest', behind'⟩, hrest, hpair⟩ := Option.map_eq_some_iff.mp htake
        cases hpair
        cases rest' with
        | nil => exact List.not_mem_nil
        | cons first others =>
            rw [List.dropLast_cons_of_ne_nil (List.cons_ne_nil _ _), List.mem_cons, not_or]
            exact ⟨fun hsame => hbyte hsame.symm, ih hrest⟩

theorem notMem_of_takeLine_eq_none {bytes : List UInt8} (htake : takeLine bytes = none) :
    newline ∉ bytes := by
  induction bytes with
  | nil => exact List.not_mem_nil
  | cons byte rest ih =>
      rw [takeLine] at htake
      split at htake
      · cases htake
      · rename_i hbyte
        rw [List.mem_cons, not_or]
        exact ⟨fun hsame => hbyte hsame.symm, ih (Option.map_eq_none_iff.mp htake)⟩

theorem atMostALine_of_notMem {text : String} (hbytes : newline ∉ (asBytes text).dropLast) :
    AtMostALine text := by
  intro before after htext
  by_contra hafter
  have hwhole : asBytes text = before.flatMap String.utf8EncodeChar ++
      newline :: after.flatMap String.utf8EncodeChar := by
    rw [asBytes_eq_flatMap, htext, List.flatMap_append, List.flatMap_cons]
    rfl
  obtain ⟨c, rest, rfl⟩ := List.exists_cons_of_ne_nil hafter
  have hne : (c :: rest).flatMap String.utf8EncodeChar ≠ [] := by
    rw [List.flatMap_cons]
    exact List.append_ne_nil_of_left_ne_nil String.utf8EncodeChar_ne_nil _
  rw [hwhole, List.dropLast_append_of_ne_nil (List.cons_ne_nil _ _),
    List.dropLast_cons_of_ne_nil hne] at hbytes
  exact hbytes (List.mem_append_right _ List.mem_cons_self)

theorem takeLine_append_of_eq_none {bytes : List UInt8} (htake : takeLine bytes = none)
    (more : List UInt8) :
    takeLine (bytes ++ more) =
      (takeLine more).map fun (line, behind) => (bytes ++ line, behind) := by
  induction bytes with
  | nil => simp
  | cons byte rest ih =>
      rw [takeLine] at htake
      rw [List.cons_append, takeLine]
      split at htake
      · cases htake
      · rename_i hbyte
        rw [if_neg hbyte, ih (Option.map_eq_none_iff.mp htake), Option.map_map]
        rfl

namespace BufReader

/-! ## Reading what is cut -/

section Cut

variable {pieces : List (List UInt8)} {buffer line behind : List UInt8}

theorem readUntil_cut_of_takeLine (hpieces : [] ∉ pieces)
    (htake : takeLine (buffer ++ pieces.flatten) = some (line, behind)) (taken : List UInt8)
    (after : ByteStream ε) :
    ∃ buffer' pieces', [] ∉ pieces' ∧ buffer' ++ pieces'.flatten = behind ∧
      readUntil taken buffer (.cut pieces after) =
        (.ok (taken ++ line), ⟨buffer', .cut pieces' after⟩) := by
  induction pieces generalizing taken buffer line with
  | nil =>
      rw [List.flatten_nil, List.append_nil] at htake
      exact ⟨behind, [], hpieces, List.append_nil _, readUntil_of_takeLine htake taken _⟩
  | cons piece rest ih =>
      obtain ⟨hpiece, hrest⟩ := List.ne_and_not_mem_of_not_mem_cons hpieces
      cases hbuffer : takeLine buffer with
      | some found =>
          obtain ⟨line', behind'⟩ := found
          rw [takeLine_append hbuffer] at htake
          cases htake
          exact ⟨behind', piece :: rest, hpieces, rfl, readUntil_of_takeLine hbuffer taken _⟩
      | none =>
          rw [takeLine_append_of_eq_none hbuffer] at htake
          obtain ⟨⟨line', behind'⟩, hfound, hpair⟩ := Option.map_eq_some_iff.mp htake
          cases hpair
          rw [List.flatten_cons] at hfound
          obtain ⟨buffer', pieces', hpieces', hbehind, hread⟩ := ih hrest hfound (taken ++ buffer)
          refine ⟨buffer', pieces', hpieces', hbehind, ?_⟩
          rw [ByteStream.cut, List.map_cons, List.cons_append,
            readUntil_of_takeLine_eq_none hbuffer taken hpiece.symm, ← ByteStream.cut, hread,
            List.append_assoc]

theorem readUntil_cut_of_takeLine_eq_none (hpieces : [] ∉ pieces)
    (htake : takeLine (buffer ++ pieces.flatten) = none) (taken : List UInt8)
    (after : ByteStream ε) :
    readUntil taken buffer (.cut pieces after) =
      readUntil (taken ++ (buffer ++ pieces.flatten)) [] after := by
  induction pieces generalizing taken buffer with
  | nil =>
      rw [List.flatten_nil, List.append_nil] at htake ⊢
      rw [ByteStream.cut, List.map_nil, List.nil_append]
      rcases after with _ | ⟨error | _ | ⟨byte, chunk⟩, after⟩ <;>
        simp [readUntil, htake, takeLine]
  | cons piece rest ih =>
      obtain ⟨hpiece, hrest⟩ := List.ne_and_not_mem_of_not_mem_cons hpieces
      have hbuffer : takeLine buffer = none := by
        cases hbuffer : takeLine buffer with
        | none => rfl
        | some found =>
            rw [takeLine_append hbuffer] at htake
            cases htake
      rw [takeLine_append_of_eq_none hbuffer, Option.map_eq_none_iff, List.flatten_cons] at htake
      rw [ByteStream.cut, List.map_cons, List.cons_append,
        readUntil_of_takeLine_eq_none hbuffer taken hpiece.symm, ← ByteStream.cut, ih hrest htake,
        List.flatten_cons, List.append_assoc]

end Cut

/-- Readers that bring the same bytes, cut into pieces differently, before they go on
alike. -/
inductive Recut : BufReader ε → BufReader ε → Prop where
  | bytes {buffer buffer' : List UInt8} {pieces pieces' : List (List UInt8)}
      (hpieces : [] ∉ pieces) (hpieces' : [] ∉ pieces')
      (hbytes : buffer ++ pieces.flatten = buffer' ++ pieces'.flatten) (after : ByteStream ε) :
      Recut ⟨buffer, .cut pieces after⟩ ⟨buffer', .cut pieces' after⟩

theorem Recut.refl (reader : BufReader ε) : Recut reader reader :=
  .bytes List.not_mem_nil List.not_mem_nil rfl reader.inner

theorem Recut.readUntil {reader reader' : BufReader ε} (hrecut : Recut reader reader') :
    (BufReader.readUntil [] reader.buffer reader.inner).1 =
        (BufReader.readUntil [] reader'.buffer reader'.inner).1 ∧
      Recut (BufReader.readUntil [] reader.buffer reader.inner).2
        (BufReader.readUntil [] reader'.buffer reader'.inner).2 := by
  obtain ⟨hpieces, hpieces', hbytes, after⟩ := hrecut
  rename_i buffer buffer' pieces pieces'
  dsimp only
  cases htake : takeLine (buffer ++ pieces.flatten) with
  | some found =>
      obtain ⟨line, behind⟩ := found
      obtain ⟨rest, cut, hcut, hbehind, hread⟩ := readUntil_cut_of_takeLine hpieces htake [] after
      rw [hbytes] at htake
      obtain ⟨rest', cut', hcut', hbehind', hread'⟩ :=
        readUntil_cut_of_takeLine hpieces' htake [] after
      rw [hread, hread']
      exact ⟨rfl, .bytes hcut hcut' (hbehind.trans hbehind'.symm) after⟩
  | none =>
      rw [readUntil_cut_of_takeLine_eq_none hpieces htake]
      rw [hbytes] at htake ⊢
      rw [readUntil_cut_of_takeLine_eq_none hpieces' htake]
      exact ⟨rfl, .refl _⟩

theorem readLine_eq (invalid : ε) (reader : BufReader ε) :
    reader.readLine invalid =
      ((BufReader.readUntil [] reader.buffer reader.inner).1.bind fun line =>
          match String.fromUTF8? ⟨line.toArray⟩ with
          | some text => .ok text
          | none => .error invalid,
        (BufReader.readUntil [] reader.buffer reader.inner).2) := by
  unfold readLine
  rcases BufReader.readUntil [] reader.buffer reader.inner with ⟨error | line, rest⟩
  · rfl
  · simp only [Except.bind]
    cases String.fromUTF8? ⟨line.toArray⟩ <;> rfl

theorem Recut.readLine {reader reader' : BufReader ε} (hrecut : Recut reader reader')
    (invalid : ε) :
    (reader.readLine invalid).1 = (reader'.readLine invalid).1 ∧
      Recut (reader.readLine invalid).2 (reader'.readLine invalid).2 := by
  obtain ⟨hresult, hrest⟩ := hrecut.readUntil
  rw [readLine_eq, readLine_eq, hresult]
  exact ⟨rfl, hrest⟩

/-- What is read has the end of a line at its end, if anywhere. -/
theorem notMem_dropLast_of_readUntil {taken buffer line : List UInt8} {inner : ByteStream ε}
    {rest : BufReader ε} (htaken : newline ∉ taken)
    (hread : BufReader.readUntil taken buffer inner = (.ok line, rest)) :
    newline ∉ line.dropLast := by
  have hfound {taken buffer found behind : List UInt8} (htaken : newline ∉ taken)
      (htake : takeLine buffer = some (found, behind)) : newline ∉ (taken ++ found).dropLast := by
    by_cases hnil : found = []
    · rw [hnil, List.append_nil]
      exact fun hmem => htaken (List.dropLast_subset _ hmem)
    · rw [List.dropLast_append_of_ne_nil hnil, List.mem_append, not_or]
      exact ⟨htaken, notMem_dropLast_of_takeLine htake⟩
  have hall {taken buffer : List UInt8} (htaken : newline ∉ taken)
      (htake : takeLine buffer = none) : newline ∉ taken ++ buffer := by
    rw [List.mem_append, not_or]
    exact ⟨htaken, notMem_of_takeLine_eq_none htake⟩
  induction inner generalizing taken buffer with
  | nil =>
      cases htake : takeLine buffer with
      | some found =>
          rw [readUntil_of_takeLine htake] at hread
          cases hread
          exact hfound htaken htake
      | none =>
          simp only [BufReader.readUntil, htake] at hread
          cases hread
          exact fun hmem => hall htaken htake (List.dropLast_subset _ hmem)
  | cons read inner ih =>
      cases htake : takeLine buffer with
      | some found =>
          rw [readUntil_of_takeLine htake] at hread
          cases hread
          exact hfound htaken htake
      | none =>
          rcases read with error | _ | ⟨byte, chunk⟩
          · simp only [BufReader.readUntil, htake] at hread
            cases hread
          · simp only [BufReader.readUntil, htake] at hread
            cases hread
            exact fun hmem => hall htaken htake (List.dropLast_subset _ hmem)
          · rw [readUntil_of_takeLine_eq_none htake taken (List.cons_ne_nil _ _)] at hread
            exact ih (hall htaken htake) hread

theorem atMostALine_of_readLine {invalid : ε} {reader rest : BufReader ε} {line : String}
    (hread : reader.readLine invalid = (.ok line, rest)) : AtMostALine line := by
  unfold readLine at hread
  split at hread
  · cases hread
  · rename_i bytes behind huntil
    split at hread
    · rename_i text htext
      cases hread
      apply atMostALine_of_notMem
      rw [asBytes_of_fromUTF8 htext]
      exact notMem_dropLast_of_readUntil List.not_mem_nil huntil
    · cases hread

/-! ## Reading back what was written -/

/-- Reads lines, one after the other. -/
def readLines (invalid : ε) : Nat → BufReader ε → List (Except ε String)
  | 0, _ => []
  | count + 1, reader =>
      (reader.readLine invalid).1 :: readLines invalid count (reader.readLine invalid).2

theorem readLines_cut (invalid : ε) {lines : List String} (hlines : ∀ line ∈ lines, IsLine line)
    {buffer : List UInt8} {pieces : List (List UInt8)} (hpieces : [] ∉ pieces)
    {more : List UInt8} (hbytes : buffer ++ pieces.flatten = lines.flatMap asBytes ++ more)
    (after : ByteStream ε) :
    readLines invalid lines.length ⟨buffer, .cut pieces after⟩ = lines.map .ok := by
  induction lines generalizing buffer pieces with
  | nil => rfl
  | cons line rest ih =>
      rw [List.forall_mem_cons] at hlines
      have htake : takeLine (buffer ++ pieces.flatten) =
          some (asBytes line, rest.flatMap asBytes ++ more) := by
        rw [hbytes, List.flatMap_cons, List.append_assoc]
        exact hlines.1.takeLine _
      obtain ⟨buffer', pieces', hpieces', hbehind, hread⟩ :=
        readUntil_cut_of_takeLine hpieces htake [] after
      have hline : readLine invalid ⟨buffer, .cut pieces after⟩ =
          (.ok line, ⟨buffer', .cut pieces' after⟩) := by
        rw [readLine_eq, hread, List.nil_append]
        simp only [Except.bind, fromUTF8_asBytes]
      rw [List.length_cons, readLines, hline, ih hlines.2 hpieces' hbehind, List.map_cons]

end BufReader

end Scuttled.Rust
