import Scuttled.Protocol

/-!
# Parsed arguments

What the parser puts into a command has no whitespace and no quotes around it.
The dispatcher joins the arguments of a command with a space, and the handlers
split the result anew: such texts come back as they were, except that an empty
one leaves no word.
-/

namespace Scuttled

open Rust

/-- A text the parser may put into a command. -/
structure IsArgument (s : String) : Prop where
  noWhitespace : NoWhitespace s
  unquote_eq : unquote s = s

/-- The arguments of a command that a handler parses again. -/
def Command.arguments : Command → List String
  | .login username password => [username, password]
  | .select mailbox | .examine mailbox | .create mailbox | .delete mailbox => [mailbox]
  | .list reference pattern => [reference, pattern]
  | .capability | .noop | .logout | .starttls | .close | .expunge | .custom _ _ => []

theorem isArgument_unquote {word : String} (hword : NoWhitespace word) :
    IsArgument (unquote word) where
  noWhitespace := noWhitespace_unquote hword
  unquote_eq := trimMatches_trimMatches _ word

theorem isArgument_of_parseCommand [UnicodeCase] {tag line : String} {command : Command}
    (hparse : parseCommand tag line = .ok command) :
    ∀ argument ∈ command.arguments, IsArgument argument := by
  unfold parseCommand at hparse
  cases hsplit : splitWhitespace line with
  | nil => simp [hsplit] at hparse
  | cons word words =>
      have hargument (piece : String) (hpiece : piece ∈ words) : IsArgument (unquote piece) := by
        apply isArgument_unquote
        have hmem : piece ∈ splitWhitespace line := by
          rw [hsplit]
          exact List.mem_cons_of_mem _ hpiece
        exact (isToken_of_mem_splitWhitespace hmem).noWhitespace
      simp only [hsplit] at hparse
      intro argument hmem
      split at hparse
      -- a command with one or two arguments has taken them from the words
      all_goals first
        | (obtain rfl := Except.ok.inj hparse
           cases hmem)
        | (split at hparse
           · obtain rfl := Except.ok.inj hparse
             simp only [Command.arguments, List.mem_cons, List.not_mem_nil, or_false] at hmem
             grind
           · cases hparse)

/-! ## Splitting arguments again -/

section Split

variable {first second : String}

theorem splitWhitespace_argument (hfirst : IsArgument first) :
    splitWhitespace first = if first = "" then [] else [first] := by
  by_cases hempty : first = ""
  · rw [if_pos hempty, hempty]
    rfl
  · rw [if_neg hempty]
    exact splitWhitespace_of_isToken
      ⟨fun hnil => hempty (String.toList_eq_nil_iff.mp hnil), hfirst.noWhitespace⟩

theorem splitWhitespace_arguments (hfirst : IsArgument first) (hsecond : IsArgument second) :
    splitWhitespace (first ++ " " ++ second) = [first, second].filter fun word => word ≠ "" := by
  by_cases hempty : first = ""
  · rw [hempty, String.empty_append, splitWhitespace_space_append,
      splitWhitespace_argument hsecond]
    by_cases hnone : second = "" <;> simp [hnone]
  · rw [splitWhitespace_token_append
        ⟨fun hnil => hempty (String.toList_eq_nil_iff.mp hnil), hfirst.noWhitespace⟩,
      splitWhitespace_argument hsecond]
    by_cases hnone : second = "" <;> simp [hnone, hempty]

theorem IsArgument.trim_eq (hfirst : IsArgument first) : trim first = first :=
  trimMatches_eq_self hfirst.noWhitespace

end Split

end Scuttled
