import Scuttled.Protocol

/-!
# Quoted arguments

A quoted argument reaches the command unchanged exactly when it contains no
whitespace: the line is split at whitespace first, so a quoted text with a
space in it is cut at the space and its tail is dropped.
-/

namespace Scuttled

open Rust

/-- `"s"` as the client writes it. -/
def quoted (s : String) : String := String.ofList ('"' :: s.toList ++ ['"'])

/-- A non-empty text that may stand between quotes without escapes. -/
structure Quotable (s : String) : Prop where
  ne_nil : s.toList ≠ []
  plain : ∀ c ∈ s.toList, c ≠ '"' ∧ c ≠ '\\' ∧ c ≠ '\r' ∧ c ≠ '\n' ∧ c ≠ '\x00'

theorem unquote_quoted {s : String} (hs : unquote s = s) : unquote (quoted s) = s :=
  trimMatches_delimited (by decide) hs

theorem Quotable.unquote_eq {s : String} (hs : Quotable s) : unquote s = s :=
  trimMatches_eq_self fun c hc => by simpa using (hs.plain c hc).1

theorem isToken_quoted {s : String} (hs : NoWhitespace s) : IsToken (quoted s) := by
  constructor
  · simp [quoted]
  · intro c hc
    simp only [quoted, String.toList_ofList, List.cons_append, List.mem_cons,
      List.mem_append, List.not_mem_nil, or_false] at hc
    rcases hc with rfl | hc | rfl
    · decide
    · exact hs c hc
    · decide

/-! ## One command word, then arguments -/

theorem splitWhitespace_command {word name : String} (hne : name.toList ≠ [])
    (hname : ∀ c ∈ name.toList, c.isUpper = true) (hword : eqIgnoreAsciiCase word name = true)
    (rest : String) :
    splitWhitespace (word ++ " " ++ rest) = word :: splitWhitespace rest :=
  splitWhitespace_token_append (isToken_of_eqIgnoreAsciiCase hne hname hword) rest

section CommandWord

variable [UnicodeCase] {word tag rest : String}

theorem parseCommand_create (hword : eqIgnoreAsciiCase word "CREATE" = true) :
    parseCommand tag (word ++ " " ++ rest) =
      match splitWhitespace rest with
      | mailbox :: _ => .ok (.create (unquote mailbox))
      | [] => .error (.protocolError "CREATE requires mailbox name") := by
  rw [parseCommand, splitWhitespace_command (by decide) (by decide) hword]
  dsimp only
  rw [toUppercase_of_eqIgnoreAsciiCase (by decide) hword]
  rfl

theorem parseCommand_select (hword : eqIgnoreAsciiCase word "SELECT" = true) :
    parseCommand tag (word ++ " " ++ rest) =
      match splitWhitespace rest with
      | mailbox :: _ => .ok (.select (unquote mailbox))
      | [] => .error (.protocolError "SELECT requires mailbox name") := by
  rw [parseCommand, splitWhitespace_command (by decide) (by decide) hword]
  dsimp only
  rw [toUppercase_of_eqIgnoreAsciiCase (by decide) hword]
  rfl

theorem parseCommand_delete (hword : eqIgnoreAsciiCase word "DELETE" = true) :
    parseCommand tag (word ++ " " ++ rest) =
      match splitWhitespace rest with
      | mailbox :: _ => .ok (.delete (unquote mailbox))
      | [] => .error (.protocolError "DELETE requires mailbox name") := by
  rw [parseCommand, splitWhitespace_command (by decide) (by decide) hword]
  dsimp only
  rw [toUppercase_of_eqIgnoreAsciiCase (by decide) hword]
  rfl

theorem parseCommand_login (hword : eqIgnoreAsciiCase word "LOGIN" = true) :
    parseCommand tag (word ++ " " ++ rest) =
      match splitWhitespace rest with
      | username :: password :: _ => .ok (.login (unquote username) (unquote password))
      | _ => .error (.protocolError "LOGIN requires username and password") := by
  rw [parseCommand, splitWhitespace_command (by decide) (by decide) hword]
  dsimp only
  rw [toUppercase_of_eqIgnoreAsciiCase (by decide) hword]
  rfl

theorem parseCommand_list (hword : eqIgnoreAsciiCase word "LIST" = true) :
    parseCommand tag (word ++ " " ++ rest) =
      match splitWhitespace rest with
      | reference :: pattern :: _ => .ok (.list (unquote reference) (unquote pattern))
      | _ => .error (.protocolError "LIST requires reference and pattern") := by
  rw [parseCommand, splitWhitespace_command (by decide) (by decide) hword]
  dsimp only
  rw [toUppercase_of_eqIgnoreAsciiCase (by decide) hword]
  rfl

end CommandWord

/-! ## One and two quoted arguments -/

/-- The first token of a quoted text yields the text exactly when nothing in it
is whitespace. -/
theorem unquote_head_iff {s : String} (hs : Quotable s) :
    (∃ first others, splitWhitespace (quoted s) = first :: others ∧ unquote first = s) ↔
      NoWhitespace s := by
  constructor
  · rintro ⟨first, others, hsplit, hfirst⟩
    have hmem : first ∈ splitWhitespace (quoted s) := by
      rw [hsplit]
      exact List.mem_cons_self
    rw [← hfirst]
    exact noWhitespace_unquote (isToken_of_mem_splitWhitespace hmem).noWhitespace
  · intro hplain
    exact ⟨quoted s, [], splitWhitespace_of_isToken (isToken_quoted hplain),
      unquote_quoted hs.unquote_eq⟩

/-- The first two tokens of two quoted texts yield both texts exactly when
neither contains whitespace. -/
theorem unquote_pair_iff {s t : String} (hs : Quotable s) (ht : Quotable t) :
    (∃ first second others,
        splitWhitespace (quoted s ++ " " ++ quoted t) = first :: second :: others ∧
          unquote first = s ∧ unquote second = t) ↔
      NoWhitespace s ∧ NoWhitespace t := by
  constructor
  · rintro ⟨first, second, others, hsplit, hfirst, hsecond⟩
    have hmem : ∀ piece ∈ [first, second], IsToken piece := by
      intro piece hpiece
      refine isToken_of_mem_splitWhitespace (s := quoted s ++ " " ++ quoted t) ?_
      rw [hsplit]
      rcases List.mem_pair.mp hpiece with rfl | rfl
      · exact List.mem_cons_self
      · exact List.mem_cons_of_mem _ List.mem_cons_self
    rw [← hfirst, ← hsecond]
    exact ⟨noWhitespace_unquote (hmem first (by simp)).noWhitespace,
      noWhitespace_unquote (hmem second (by simp)).noWhitespace⟩
  · rintro ⟨hplain, hplain'⟩
    refine ⟨quoted s, quoted t, [], ?_, unquote_quoted hs.unquote_eq, unquote_quoted ht.unquote_eq⟩
    rw [splitWhitespace_token_append (isToken_quoted hplain),
      splitWhitespace_of_isToken (isToken_quoted hplain')]

section QuotedCommands

variable [UnicodeCase] {s t tag word : String}

theorem parseCommand_create_quoted_iff (hs : Quotable s)
    (hword : eqIgnoreAsciiCase word "CREATE" = true) :
    parseCommand tag (word ++ " " ++ quoted s) = .ok (.create s) ↔ NoWhitespace s := by
  rw [parseCommand_create hword, ← unquote_head_iff hs]
  cases splitWhitespace (quoted s) <;> simp

theorem parseCommand_select_quoted_iff (hs : Quotable s)
    (hword : eqIgnoreAsciiCase word "SELECT" = true) :
    parseCommand tag (word ++ " " ++ quoted s) = .ok (.select s) ↔ NoWhitespace s := by
  rw [parseCommand_select hword, ← unquote_head_iff hs]
  cases splitWhitespace (quoted s) <;> simp

theorem parseCommand_delete_quoted_iff (hs : Quotable s)
    (hword : eqIgnoreAsciiCase word "DELETE" = true) :
    parseCommand tag (word ++ " " ++ quoted s) = .ok (.delete s) ↔ NoWhitespace s := by
  rw [parseCommand_delete hword, ← unquote_head_iff hs]
  cases splitWhitespace (quoted s) <;> simp

theorem parseCommand_login_quoted_iff (hs : Quotable s) (ht : Quotable t)
    (hword : eqIgnoreAsciiCase word "LOGIN" = true) :
    parseCommand tag (word ++ " " ++ (quoted s ++ " " ++ quoted t)) = .ok (.login s t) ↔
      NoWhitespace s ∧ NoWhitespace t := by
  rw [parseCommand_login hword, ← unquote_pair_iff hs ht]
  rcases splitWhitespace (quoted s ++ " " ++ quoted t) with _ | ⟨first, _ | ⟨second, others⟩⟩ <;>
    simp

theorem parseCommand_list_quoted_iff (hs : Quotable s) (ht : Quotable t)
    (hword : eqIgnoreAsciiCase word "LIST" = true) :
    parseCommand tag (word ++ " " ++ (quoted s ++ " " ++ quoted t)) = .ok (.list s t) ↔
      NoWhitespace s ∧ NoWhitespace t := by
  rw [parseCommand_list hword, ← unquote_pair_iff hs ht]
  rcases splitWhitespace (quoted s ++ " " ++ quoted t) with _ | ⟨first, _ | ⟨second, others⟩⟩ <;>
    simp

end QuotedCommands

/--
Quoted arguments are taken over exactly when they contain no whitespace.  For
each of the five commands, in any spelling of its name, the parsed command
carries the quoted text itself if and only if the text is free of whitespace;
two such mailbox names that differ are parsed to commands that differ.
-/
theorem parseCommand_quoted_iff [UnicodeCase] {s t : String}
    (hs : Quotable s) (ht : Quotable t) (tag word : String) :
    (eqIgnoreAsciiCase word "CREATE" = true →
      (parseCommand tag (word ++ " " ++ quoted s) = .ok (.create s) ↔ NoWhitespace s)) ∧
    (eqIgnoreAsciiCase word "SELECT" = true →
      (parseCommand tag (word ++ " " ++ quoted s) = .ok (.select s) ↔ NoWhitespace s)) ∧
    (eqIgnoreAsciiCase word "DELETE" = true →
      (parseCommand tag (word ++ " " ++ quoted s) = .ok (.delete s) ↔ NoWhitespace s)) ∧
    (eqIgnoreAsciiCase word "LOGIN" = true →
      (parseCommand tag (word ++ " " ++ (quoted s ++ " " ++ quoted t)) = .ok (.login s t) ↔
        NoWhitespace s ∧ NoWhitespace t)) ∧
    (eqIgnoreAsciiCase word "LIST" = true →
      (parseCommand tag (word ++ " " ++ (quoted s ++ " " ++ quoted t)) = .ok (.list s t) ↔
        NoWhitespace s ∧ NoWhitespace t)) ∧
    (∀ name ∈ ["CREATE", "SELECT", "DELETE"], eqIgnoreAsciiCase word name = true →
      NoWhitespace s → NoWhitespace t → s ≠ t →
        parseCommand tag (word ++ " " ++ quoted s) ≠
          parseCommand tag (word ++ " " ++ quoted t)) := by
  refine ⟨parseCommand_create_quoted_iff hs, parseCommand_select_quoted_iff hs,
    parseCommand_delete_quoted_iff hs, parseCommand_login_quoted_iff hs ht,
    parseCommand_list_quoted_iff hs ht, ?_⟩
  intro name hname hword hplain hplain' hne hsame
  simp only [List.mem_cons, List.not_mem_nil, or_false] at hname
  rcases hname with rfl | rfl | rfl
  · rw [(parseCommand_create_quoted_iff hs hword).mpr hplain,
      (parseCommand_create_quoted_iff ht hword).mpr hplain'] at hsame
    exact hne (by simpa using hsame)
  · rw [(parseCommand_select_quoted_iff hs hword).mpr hplain,
      (parseCommand_select_quoted_iff ht hword).mpr hplain'] at hsame
    exact hne (by simpa using hsame)
  · rw [(parseCommand_delete_quoted_iff hs hword).mpr hplain,
      (parseCommand_delete_quoted_iff ht hword).mpr hplain'] at hsame
    exact hne (by simpa using hsame)

/-- The law at the name `Sent` and the pattern `*`, the commands in mixed case. -/
theorem parseCommand_quoted_sent :
    let _ := UnicodeCase.ascii
    parseCommand "a1" ("Create" ++ " " ++ quoted "Sent") = .ok (.create "Sent") ∧
      parseCommand "a1" ("lisT" ++ " " ++ (quoted "Sent" ++ " " ++ quoted "*")) =
        .ok (.list "Sent" "*") := by
  let _ := UnicodeCase.ascii
  have hsent : Quotable "Sent" := ⟨by decide, by decide⟩
  have hstar : Quotable "*" := ⟨by decide, by decide⟩
  have hplain : NoWhitespace "Sent" ∧ NoWhitespace "*" := ⟨by decide, by decide⟩
  constructor
  · exact ((parseCommand_quoted_iff hsent hstar "a1" "Create").1 (by decide)).mpr hplain.1
  · exact ((parseCommand_quoted_iff hsent hstar "a1" "lisT").2.2.2.2.1 (by decide)).mpr hplain

/-- `CREATE "My Mailbox"` and `CREATE "My Box"` are both parsed as `CREATE My`. -/
theorem parseCommand_quoted_space :
    let _ := UnicodeCase.ascii
    Quotable "My Mailbox" ∧ Quotable "My Box" ∧
      parseCommand "a1" ("CREATE" ++ " " ++ quoted "My Mailbox") = .ok (.create "My") ∧
      parseCommand "a1" ("CREATE" ++ " " ++ quoted "My Box") = .ok (.create "My") := by
  refine ⟨⟨by decide, by decide⟩, ⟨by decide, by decide⟩, ?_, ?_⟩
  · decide
  · decide

end Scuttled
