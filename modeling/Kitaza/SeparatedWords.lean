import Mathlib.Data.List.Basic
import Mathlib.Data.List.Induction

/-!
# Words between separators

A text is split at every run of separators, which leaves an empty piece where
a run begins or ends the text. The words are the other pieces. Words put
together again with one separator between them are the words of what results.
-/

namespace Kitaza.SeparatedWords

variable {α : Type*}

/-- The pieces of a text between its runs of separators. -/
def splitRuns (isSep : α → Bool) : List α → List (List α)
  | [] => [[]]
  | c :: rest =>
    if isSep c then
      -- the run goes on, or a piece begins after it
      if rest.head?.any isSep then splitRuns isSep rest else [] :: splitRuns isSep rest
    else
      match splitRuns isSep rest with
      | [] => [[c]]
      | piece :: pieces => (c :: piece) :: pieces

/-- The pieces that are not empty. -/
def words (isSep : α → Bool) (text : List α) : List (List α) :=
  (splitRuns isSep text).filter fun piece => !piece.isEmpty

section

variable {isSep : α → Bool}

theorem splitRuns_ne_nil (text : List α) : splitRuns isSep text ≠ [] := by
  induction text with
  | nil => simp [splitRuns]
  | cons c rest ih =>
    rw [splitRuns]
    split
    · split
      · exact ih
      · simp
    · split
      · simp
      · simp

/-- A text that begins with a separator begins with an empty piece. -/
theorem splitRuns_sep {c : α} (hc : isSep c = true) (rest : List α) :
    ∃ pieces, splitRuns isSep (c :: rest) = [] :: pieces := by
  induction rest generalizing c with
  | nil => exact ⟨[[]], by simp [splitRuns, hc]⟩
  | cons d rest ih =>
    by_cases hd : isSep d = true
    · obtain ⟨pieces, hpieces⟩ := ih hd
      exact ⟨pieces, by rw [splitRuns, if_pos hc, if_pos (by simp [hd]), hpieces]⟩
    · exact ⟨splitRuns isSep (d :: rest), by
        rw [splitRuns, if_pos hc, if_neg (by simp [hd])]⟩

/-- The pieces put together are the text without its separators. -/
theorem flatten_splitRuns (text : List α) :
    (splitRuns isSep text).flatten = text.filter fun c => !isSep c := by
  induction text with
  | nil => rfl
  | cons c rest ih =>
    by_cases hc : isSep c = true
    · rw [List.filter_cons_of_neg (by simp [hc]), ← ih, splitRuns, if_pos hc]
      split
      · rfl
      · rw [List.flatten_cons, List.nil_append]
    · rw [List.filter_cons_of_pos (by simp [hc]), ← ih, splitRuns, if_neg hc]
      cases h : splitRuns isSep rest with
      | nil => exact absurd h (splitRuns_ne_nil rest)
      | cons piece pieces => simp

/-- The words put together are the text without its separators. -/
theorem flatten_words (text : List α) :
    (words isSep text).flatten = text.filter fun c => !isSep c := by
  rw [← flatten_splitRuns, words]
  induction splitRuns isSep text with
  | nil => rfl
  | cons piece pieces ih =>
    cases piece with
    | nil => simpa using ih
    | cons c cs => simp [ih]

/-- A word is not empty. -/
theorem ne_nil_of_mem_words {text word : List α} (h : word ∈ words isSep text) : word ≠ [] := by
  have := (List.mem_filter.mp h).2
  simpa using this

/-- A word has no separator. -/
theorem notSep_of_mem_words {text word : List α} (h : word ∈ words isSep text) :
    ∀ c ∈ word, isSep c = false := by
  intro c hc
  have hmem : c ∈ (words isSep text).flatten := List.mem_flatten.mpr ⟨word, h, hc⟩
  rw [flatten_words, List.mem_filter] at hmem
  simpa using hmem.2

/-- A word, a separator and a text: one word more. -/
theorem words_append_sep {word : List α} {sep : α} (hne : word ≠ [])
    (hword : ∀ c ∈ word, isSep c = false) (hsep : isSep sep = true) (text : List α) :
    words isSep (word ++ sep :: text) = word :: words isSep text := by
  have hsplit : ∀ word : List α, (∀ c ∈ word, isSep c = false) →
      ∃ pieces, splitRuns isSep (word ++ sep :: text) = word :: pieces ∧
        pieces.filter (fun piece => !piece.isEmpty) = words isSep text := by
    intro word
    induction word with
    | nil =>
      intro _
      obtain ⟨pieces, hpieces⟩ := splitRuns_sep hsep text
      refine ⟨pieces, hpieces, ?_⟩
      rw [splitRuns, if_pos hsep] at hpieces
      split at hpieces
      · rw [words, hpieces, List.filter_cons_of_neg (by simp)]
      · rw [words, (List.cons.inj hpieces).2]
    | cons c cs ih =>
      intro hcs
      obtain ⟨pieces, hpieces, hfilter⟩ := ih fun d hd => hcs d (List.mem_cons_of_mem _ hd)
      have hc := hcs c List.mem_cons_self
      exact ⟨pieces, by rw [List.cons_append, splitRuns, if_neg (by simp [hc]), hpieces], hfilter⟩
  obtain ⟨pieces, hpieces, hfilter⟩ := hsplit word hword
  rw [words, hpieces, List.filter_cons_of_pos (by simpa using hne), hfilter]

/-- A word by itself. -/
theorem words_self {word : List α} (hne : word ≠ []) (hword : ∀ c ∈ word, isSep c = false) :
    words isSep word = [word] := by
  have hsplit : splitRuns isSep word = [word] := by
    clear hne
    induction word with
    | nil => rfl
    | cons c cs ih =>
      have hc := hword c List.mem_cons_self
      rw [splitRuns, if_neg (by simp [hc]), ih fun d hd => hword d (List.mem_cons_of_mem _ hd)]
  rw [words, hsplit, List.filter_cons_of_pos (by simpa using hne), List.filter_nil]

end

section

variable {sep : α}

/-- One word more at the end. -/
theorem intercalate_concat {row : List (List α)} (hrow : row ≠ []) (word : List α) :
    [sep].intercalate (row ++ [word]) = [sep].intercalate row ++ sep :: word := by
  induction row with
  | nil => exact absurd rfl hrow
  | cons first rest ih =>
    cases rest with
    | nil => simp
    | cons next rest =>
      rw [List.cons_append, List.intercalate_cons_of_ne_nil (by simp), ih (by simp),
        List.intercalate_cons_cons]
      simp

/-- Words put together, without the separators. -/
theorem filter_intercalate {isSep : α → Bool} (hsep : isSep sep = true) {row : List (List α)}
    (hrow : ∀ word ∈ row, ∀ c ∈ word, isSep c = false) :
    ([sep].intercalate row).filter (fun c => !isSep c) = row.flatten := by
  induction row with
  | nil => rfl
  | cons first rest ih =>
    have hfirst : first.filter (fun c => !isSep c) = first := by
      rw [List.filter_eq_self]
      intro c hc
      simp [hrow first List.mem_cons_self c hc]
    have hrest := ih fun word hword => hrow word (List.mem_cons_of_mem _ hword)
    cases rest with
    | nil => simpa using hfirst
    | cons next rest =>
      rw [List.intercalate_cons_cons, List.filter_append, List.filter_append, hrest, hfirst,
        List.filter_cons_of_neg (by simp [hsep]), List.filter_nil, List.append_nil]
      exact List.flatten_cons.symm

/-- The words of words put together are those words. -/
theorem words_intercalate {isSep : α → Bool} (hsep : isSep sep = true) {row : List (List α)}
    (hne : ∀ word ∈ row, word ≠ []) (hrow : ∀ word ∈ row, ∀ c ∈ word, isSep c = false) :
    words isSep ([sep].intercalate row) = row := by
  induction row with
  | nil => rfl
  | cons first rest ih =>
    have hfirst := hne first List.mem_cons_self
    have hnotSep := hrow first List.mem_cons_self
    have hrest := ih (fun word hword => hne word (List.mem_cons_of_mem _ hword))
      fun word hword => hrow word (List.mem_cons_of_mem _ hword)
    cases rest with
    | nil => simpa using words_self hfirst hnotSep
    | cons next rest =>
      rw [List.intercalate_cons_cons, List.append_assoc, List.singleton_append,
        words_append_sep hfirst hnotSep hsep, hrest]

/-- Words put together begin as the first word does. -/
theorem head?_intercalate {row : List (List α)} {word : List α} (hrow : row.head? = some word)
    (hne : word ≠ []) : ([sep].intercalate row).head? = word.head? := by
  match row, hrow with
  | [_], rfl => rw [List.intercalate_singleton]
  | _ :: _ :: _, rfl =>
    rw [List.intercalate_cons_cons, List.append_assoc, List.head?_append_of_ne_nil _ hne]

/-- And end as the last word does. -/
theorem getLast?_intercalate {row : List (List α)} {word : List α}
    (hrow : row.getLast? = some word) (hne : word ≠ []) :
    ([sep].intercalate row).getLast? = word.getLast? := by
  obtain ⟨init, rfl⟩ := List.getLast?_eq_some_iff.mp hrow
  by_cases hinit : init = []
  · rw [hinit, List.nil_append, List.intercalate_singleton]
  · rw [intercalate_concat hinit, List.getLast?_append_of_ne_nil _ (by simp),
      List.getLast?_cons_of_ne_nil hne]

/-- What begins a row of words put together is no longer than the row. -/
theorem length_intercalate_append (init rest : List (List α)) :
    ([sep].intercalate init).length ≤ ([sep].intercalate (init ++ rest)).length := by
  induction rest using List.reverseRecOn with
  | nil => simp
  | append_singleton rest word ih =>
    rw [← List.append_assoc]
    by_cases h : init ++ rest = []
    · have hinit : init = [] := (List.append_eq_nil_iff.mp h).1
      rw [hinit]
      exact Nat.zero_le _
    · rw [intercalate_concat h, List.length_append]
      omega

end

end Kitaza.SeparatedWords
