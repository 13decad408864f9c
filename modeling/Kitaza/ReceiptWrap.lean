import Kitaza.DartText
import Kitaza.GreedyPacking

/-!
# Wrapping a receipt's words

The words of a text are filled into lines of the paper's width. A word longer
than the paper is broken hard: full pieces of it become lines of their own,
and the rest is placed like any word. The lines are those of the greedy
packing of the pieces, with a space between two pieces of a line.
-/

namespace Kitaza.ReceiptWrap

open DartText SeparatedWords GreedyPacking

/-- The inner loop: a piece longer than the paper loses its first full line,
which comes after the line under way. -/
def breakHard (width : ℕ) (hwidth : 1 ≤ width) (lines : List Text) (current piece : Text) :
    List Text × Text × Text :=
  if _ : width < piece.length then
    breakHard width hwidth
      ((if current ≠ [] then lines ++ [current] else lines) ++ [piece.take width]) []
      (piece.drop width)
  else (lines, current, piece)
termination_by piece.length
decreasing_by
  rw [List.length_drop]
  omega

/-- A piece no longer than the paper is placed. -/
def putPiece (width : ℕ) (lines : List Text) (current piece : Text) : List Text × Text :=
  if current = [] then (lines, piece)
  else if current.length + 1 + piece.length ≤ width then (lines, current ++ space :: piece)
  else (lines ++ [current], piece)

/-- One round of the outer loop, for one string of the split text. -/
def wrapWord (width : ℕ) (hwidth : 1 ≤ width) (state : List Text × Text) (word : Text) :
    List Text × Text :=
  if word = [] then state
  else
    let (lines, current, piece) := breakHard width hwidth state.1 state.2 word
    putPiece width lines current piece

/-- `ReceiptLayout._wrap`, for a width that lets the inner loop end. -/
def wrap (width : ℕ) (hwidth : 1 ≤ width) (text : Text) : List Text :=
  let (lines, current) := (splitSpaces text).foldl (wrapWord width hwidth) ([], [])
  if current ≠ [] ∨ lines = [] then lines ++ [current] else lines

/-- The pieces of a word: full lines of it and what is left. -/
def piecesOf (width : ℕ) (hwidth : 1 ≤ width) (word : Text) : List Text :=
  if _ : width < word.length then
    word.take width :: piecesOf width hwidth (word.drop width)
  else [word]
termination_by word.length
decreasing_by
  rw [List.length_drop]
  omega

/-- The line of a row of pieces. -/
abbrev lineOf (row : List Text) : Text := [space].intercalate row

/-- A row of pieces fits the paper. -/
def fits (width : ℕ) (row : List Text) : Bool := decide ((lineOf row).length ≤ width)

/-- The pieces of a text. -/
def textPieces (width : ℕ) (hwidth : 1 ≤ width) (text : Text) : List Text :=
  (wordsOf text).flatMap (piecesOf width hwidth)

/-- The lines of rows done and of the row being filled. -/
def view (state : List (List Text) × List Text) : List Text × Text :=
  (state.1.map lineOf, lineOf state.2)

section

variable {width : ℕ} {hwidth : 1 ≤ width}

/-- A word that fits is not broken. -/
theorem piecesOf_of_le {word : Text} (h : word.length ≤ width) :
    piecesOf width hwidth word = [word] := by
  rw [piecesOf, dif_neg (by omega)]

theorem piecesOf_of_lt {word : Text} (h : width < word.length) :
    piecesOf width hwidth word = word.take width :: piecesOf width hwidth (word.drop width) := by
  rw [piecesOf, dif_pos h]

/-- The pieces put together are the word. -/
theorem flatten_piecesOf (word : Text) : (piecesOf width hwidth word).flatten = word := by
  induction word using piecesOf.induct width hwidth with
  | case1 word h ih => rw [piecesOf_of_lt h, List.flatten_cons, ih, List.take_append_drop]
  | case2 word h => rw [piecesOf_of_le (by omega), List.flatten_singleton]

/-- A piece of a word is not empty and fits the paper. -/
theorem length_of_mem_piecesOf {word piece : Text} (hword : word ≠ [])
    (h : piece ∈ piecesOf width hwidth word) : piece ≠ [] ∧ piece.length ≤ width := by
  induction word using piecesOf.induct width hwidth with
  | case1 word hlong ih =>
    rw [piecesOf_of_lt hlong, List.mem_cons] at h
    cases h with
    | inl h =>
      have hlength : piece.length = width := by
        rw [h, List.length_take]
        omega
      exact ⟨List.ne_nil_of_length_pos (by omega), hlength.le⟩
    | inr h =>
      apply ih _ h
      apply List.ne_nil_of_length_pos
      rw [List.length_drop]
      omega
  | case2 word hshort =>
    rw [piecesOf_of_le (by omega), List.mem_singleton] at h
    rw [h]
    exact ⟨hword, by omega⟩

/-- The first piece of a word. -/
theorem piecesOf_eq_cons {word : Text} (hword : word ≠ []) :
    ∃ piece pieces, piece ≠ [] ∧ piecesOf width hwidth word = piece :: pieces := by
  cases h : piecesOf width hwidth word with
  | nil =>
    have hflat := @flatten_piecesOf _ hwidth word
    rw [h] at hflat
    exact absurd hflat.symm hword
  | cons piece pieces =>
    exact ⟨piece, pieces, (length_of_mem_piecesOf hword (h ▸ List.mem_cons_self)).1, rfl⟩

/-- The line of a row is empty only if the row is. -/
theorem lineOf_eq_nil {row : List Text} (hrow : ∀ piece ∈ row, piece ≠ []) :
    lineOf row = [] ↔ row = [] := by
  constructor
  · intro h
    cases row with
    | nil => rfl
    | cons first rest =>
      have hfirst := hrow first List.mem_cons_self
      have hhead : (lineOf (first :: rest)).head? = first.head? := head?_intercalate rfl hfirst
      rw [h, List.head?_nil] at hhead
      exact absurd (List.head?_eq_none_iff.mp hhead.symm) hfirst
  · intro h
    rw [h]
    rfl

/-- Placing a piece is placing it on the row. -/
theorem putPiece_view {state : List (List Text) × List Text} {piece : Text}
    (hstate : ∀ p ∈ state.2, p ≠ []) :
    putPiece width (view state).1 (view state).2 piece =
      view (place (fits width) state piece) := by
  by_cases hrow : state.2 = []
  · have hline : (view state).2 = [] := (lineOf_eq_nil hstate).mpr hrow
    rw [putPiece, if_pos hline, place, if_pos hrow]
    simp [view]
  · have hline : (view state).2 ≠ [] := mt (lineOf_eq_nil hstate).mp hrow
    have hjoin : lineOf (state.2 ++ [piece]) = lineOf state.2 ++ space :: piece :=
      intercalate_concat hrow piece
    have hlength : (lineOf (state.2 ++ [piece])).length =
        (view state).2.length + 1 + piece.length := by
      rw [hjoin, List.length_append, List.length_cons]
      change _ = (lineOf state.2).length + 1 + piece.length
      omega
    rw [putPiece, if_neg hline, place, if_neg hrow, fits, hlength]
    by_cases hfit : (view state).2.length + 1 + piece.length ≤ width
    · rw [if_pos hfit, if_pos (by simpa using hfit)]
      simp [view, hjoin]
    · rw [if_neg hfit, if_neg (by simpa using hfit)]
      simp [view]

/-- A piece as long as the paper shares its row with no other. -/
theorem place_full {state : List (List Text) × List Text} {piece : Text}
    (hpiece : piece.length = width) :
    place (fits width) state piece = (close state, [piece]) := by
  by_cases hrow : state.2 = []
  · rw [place, if_pos hrow, close, if_pos hrow]
  · have hover : ¬ fits width (state.2 ++ [piece]) = true := by
      rw [fits, lineOf, intercalate_concat hrow, decide_eq_true_eq, List.length_append,
        List.length_cons]
      omega
    rw [place, if_neg hrow, if_neg hover, close, if_neg hrow]

theorem place_after_full {done : List (List Text)} {full piece : Text}
    (hfull : full.length = width) (hpiece : piece ≠ []) :
    place (fits width) (done, [full]) piece = place (fits width) (done ++ [[full]], []) piece := by
  have hpos := List.length_pos_of_ne_nil hpiece
  have hover : ¬ fits width ([full] ++ [piece]) = true := by
    rw [fits, lineOf, intercalate_concat (by simp), decide_eq_true_eq, List.length_append,
      List.intercalate_singleton, List.length_cons]
    omega
  rw [place, if_neg (by simp), if_neg hover, place, if_pos rfl]

/-- The row being filled stays a row of pieces. -/
theorem foldl_place_ne_nil {items : List Text} (hitems : ∀ piece ∈ items, piece ≠ [])
    {state : List (List Text) × List Text} (hstate : ∀ p ∈ state.2, p ≠ []) :
    ∀ p ∈ (items.foldl (place (fits width)) state).2, p ≠ [] := by
  induction items generalizing state with
  | nil => exact hstate
  | cons piece rest ih =>
    have hpiece := hitems piece List.mem_cons_self
    rw [List.foldl_cons]
    apply ih fun p hp => hitems p (List.mem_cons_of_mem _ hp)
    intro p hp
    rw [place] at hp
    split at hp
    · rwa [List.mem_singleton.mp hp]
    · split at hp
      · cases List.mem_append.mp hp with
        | inl hp => exact hstate p hp
        | inr hp => rwa [List.mem_singleton.mp hp]
      · rwa [List.mem_singleton.mp hp]

/-- Breaking and placing a word is placing its pieces. -/
theorem breakHard_view {word : Text} (hword : word ≠ [])
    (state : List (List Text) × List Text) (hstate : ∀ p ∈ state.2, p ≠ []) :
    (let (lines, current, piece) := breakHard width hwidth (view state).1 (view state).2 word
    putPiece width lines current piece) =
      view ((piecesOf width hwidth word).foldl (place (fits width)) state) := by
  induction word using piecesOf.induct width hwidth generalizing state with
  | case1 word hlong ih =>
    have hrest : word.drop width ≠ [] := by
      apply List.ne_nil_of_length_pos
      rw [List.length_drop]
      omega
    have htake : (word.take width).length = width := by
      rw [List.length_take]
      omega
    -- the full line is closed at once by the loop, by its next piece when packing
    have hlines : (if (view state).2 ≠ [] then (view state).1 ++ [(view state).2]
        else (view state).1) ++ [word.take width] =
        (view (close state ++ [[word.take width]], [])).1 := by
      by_cases hrow : state.2 = []
      · have hline : (view state).2 = [] := (lineOf_eq_nil hstate).mpr hrow
        rw [if_neg (by simp [hline]), close, if_pos hrow]
        simp [view]
      · have hline : (view state).2 ≠ [] := mt (lineOf_eq_nil hstate).mp hrow
        rw [if_pos hline, close, if_neg hrow]
        simp [view]
    have hpacked : (piecesOf width hwidth word).foldl (place (fits width)) state =
        (piecesOf width hwidth (word.drop width)).foldl (place (fits width))
          (close state ++ [[word.take width]], []) := by
      obtain ⟨piece, pieces, hpiece, hpieces⟩ := @piecesOf_eq_cons _ hwidth _ hrest
      rw [piecesOf_of_lt hlong, List.foldl_cons, place_full htake, hpieces, List.foldl_cons,
        List.foldl_cons, place_after_full htake hpiece]
    rw [hpacked, ← ih hrest (close state ++ [[word.take width]], []) (by simp), breakHard,
      dif_pos hlong, hlines]
    rfl
  | case2 word hshort =>
    rw [breakHard, dif_neg hshort, piecesOf_of_le (by omega)]
    exact putPiece_view hstate

/-- The outer loop packs the pieces of the words. -/
theorem foldl_wrapWord (pieces : List Text) (state : List (List Text) × List Text)
    (hstate : ∀ p ∈ state.2, p ≠ []) :
    pieces.foldl (wrapWord width hwidth) (view state) =
      view (((pieces.filter fun piece => !piece.isEmpty).flatMap
        (piecesOf width hwidth)).foldl (place (fits width)) state) := by
  induction pieces generalizing state with
  | nil => rfl
  | cons word rest ih =>
    rw [List.foldl_cons]
    by_cases hword : word = []
    · rw [wrapWord, if_pos hword, List.filter_cons_of_neg (by simp [hword])]
      exact ih state hstate
    · rw [wrapWord, if_neg hword, breakHard_view hword state hstate,
        List.filter_cons_of_pos (by simpa using hword), List.flatMap_cons, List.foldl_append]
      exact ih _ (foldl_place_ne_nil
        (fun piece hpiece => (length_of_mem_piecesOf hword hpiece).1) hstate)

/-- A piece of a text is not empty, fits the paper and has no space. -/
theorem of_mem_textPieces {text piece : Text} (h : piece ∈ textPieces width hwidth text) :
    piece ≠ [] ∧ piece.length ≤ width ∧ ∀ c ∈ piece, isSpace c = false := by
  obtain ⟨word, hword, hpiece⟩ := List.mem_flatMap.mp h
  obtain ⟨hne, hlength⟩ := length_of_mem_piecesOf (ne_nil_of_mem_words hword) hpiece
  refine ⟨hne, hlength, fun c hc => notSep_of_mem_words hword c ?_⟩
  rw [← @flatten_piecesOf _ hwidth word]
  exact List.mem_flatten.mpr ⟨piece, hpiece, hc⟩

/-- The pieces put together are the text without its whitespace. -/
theorem flatten_textPieces (text : Text) :
    (textPieces width hwidth text).flatten = text.filter fun c => !isSpace c := by
  rw [← flatten_words, textPieces, wordsOf]
  induction words isSpace text with
  | nil => rfl
  | cons word rest ih =>
    rw [List.flatMap_cons, List.flatten_append, ih, flatten_piecesOf, List.flatten_cons]

/-- The rows of a text are packed. -/
theorem rows_packed (text : Text) :
    Packed (fits width) (textPieces width hwidth text)
      (pack (fits width) (textPieces width hwidth text)) := by
  apply pack_packed
  intro piece hpiece
  rw [fits, lineOf, List.intercalate_singleton, decide_eq_true_eq]
  exact (of_mem_textPieces hpiece).2.1

/-- The lines of a text are those of its rows; a blank text has one empty
line. -/
theorem wrap_eq (text : Text) :
    wrap width hwidth text = if textPieces width hwidth text = [] then [[]]
      else (pack (fits width) (textPieces width hwidth text)).map lineOf := by
  have hloop := @foldl_wrapWord _ hwidth (splitSpaces text) ([], []) (by simp)
  have hpacked := @rows_packed _ hwidth text
  have hpieces : ∀ p ∈ ((textPieces width hwidth text).foldl (place (fits width)) ([], [])).2,
      p ≠ [] :=
    foldl_place_ne_nil (fun piece hpiece => (of_mem_textPieces hpiece).1) (by simp)
  change _ = view ((textPieces width hwidth text).foldl (place (fits width)) ([], [])) at hloop
  rw [pack] at hpacked ⊢
  unfold wrap
  rw [show (([], []) : List Text × Text) = view ([], []) from rfl, hloop]
  by_cases hnone : textPieces width hwidth text = []
  · rw [hnone, if_pos rfl]
    rfl
  · rw [if_neg hnone]
    generalize (textPieces width hwidth text).foldl (place (fits width)) ([], []) = state
      at hpacked hpieces
    change (if lineOf state.2 ≠ [] ∨ state.1.map lineOf = [] then
      state.1.map lineOf ++ [lineOf state.2] else state.1.map lineOf) = _
    by_cases hrow : state.2 = []
    · -- no row is being filled, so there are rows done
      rw [close, if_pos hrow] at hpacked ⊢
      have hdone : state.1 ≠ [] := by
        intro h
        exact hnone (by rw [← hpacked.holds, h, List.flatten_nil])
      rw [if_neg (by simp [(lineOf_eq_nil hpieces).mpr hrow, hdone])]
    · have hline : lineOf state.2 ≠ [] := mt (lineOf_eq_nil hpieces).mp hrow
      rw [if_pos (Or.inl hline), close, if_neg hrow, List.map_append, List.map_singleton]

/-- A line of a text is one of its rows, or the empty line of a blank text. -/
theorem of_mem_wrap {text line : Text} (h : line ∈ wrap width hwidth text) :
    line = [] ∨ ∃ row, row ≠ [] ∧ line = lineOf row ∧ line.length ≤ width ∧
      ∀ piece ∈ row, piece ∈ textPieces width hwidth text := by
  rw [wrap_eq] at h
  split at h
  · exact Or.inl (List.mem_singleton.mp h)
  · obtain ⟨row, hrow, rfl⟩ := List.mem_map.mp h
    have hpacked := @rows_packed _ hwidth text
    have hfit : fits width row = true := hpacked.fit row hrow
    refine Or.inr ⟨row, hpacked.nonempty row hrow, rfl, by simpa [fits] using hfit, ?_⟩
    intro piece hpiece
    rw [← hpacked.holds]
    exact List.mem_flatten.mpr ⟨row, hrow, hpiece⟩

/-- The words on the lines, in order, are the pieces. -/
theorem flatMap_words_wrap (text : Text) :
    (wrap width hwidth text).flatMap wordsOf = textPieces width hwidth text := by
  have hpacked := @rows_packed _ hwidth text
  rw [wrap_eq]
  split
  next hnone => rw [hnone]; rfl
  next hsome =>
    have hrows : ∀ row ∈ pack (fits width) (textPieces width hwidth text),
        wordsOf (lineOf row) = row := by
      intro row hrow
      have hmem : ∀ piece ∈ row, piece ∈ textPieces width hwidth text := by
        intro piece hpiece
        rw [← hpacked.holds]
        exact List.mem_flatten.mpr ⟨row, hrow, hpiece⟩
      exact words_intercalate isSpace_space (fun piece hp => (of_mem_textPieces (hmem piece hp)).1)
        fun piece hp => (of_mem_textPieces (hmem piece hp)).2.2
    have hwords := hpacked.holds
    rw [List.flatMap_map, List.flatMap_def, List.map_congr_left hrows, List.map_id']
    exact hwords

/-- There is always a line. -/
theorem wrap_ne_nil (text : Text) : wrap width hwidth text ≠ [] := by
  rw [wrap_eq]
  split
  next => simp
  next hsome =>
    intro h
    have hholds := (@rows_packed _ hwidth text).holds
    rw [List.map_eq_nil_iff.mp h, List.flatten_nil] at hholds
    exact hsome hholds.symm

/-- A line fits. -/
theorem length_of_mem_wrap {text line : Text} (h : line ∈ wrap width hwidth text) :
    line.length ≤ width := by
  cases of_mem_wrap h with
  | inl hblank => rw [hblank]; exact Nat.zero_le _
  | inr hrow =>
    obtain ⟨_, _, _, hlength, _⟩ := hrow
    exact hlength

/-- A line begins and ends with no space. -/
theorem ends_of_mem_wrap {text line : Text} (h : line ∈ wrap width hwidth text) :
    line.head? ≠ some space ∧ line.getLast? ≠ some space := by
  cases of_mem_wrap h with
  | inl hblank => simp [hblank]
  | inr hrow =>
    obtain ⟨row, hne, rfl, _, hpieces⟩ := hrow
    have hnone : ∀ piece ∈ row, space ∉ piece := by
      intro piece hpiece hspace
      have := (of_mem_textPieces (hpieces piece hpiece)).2.2 space hspace
      rw [isSpace_space] at this
      cases this
    have hfirst := List.head?_eq_some_head hne
    have hlast := List.getLast?_eq_some_getLast hne
    have hfirstMem := List.head_mem hne
    have hlastMem := List.getLast_mem hne
    constructor
    · rw [lineOf, head?_intercalate hfirst (of_mem_textPieces (hpieces _ hfirstMem)).1]
      exact fun hc => hnone _ hfirstMem (List.mem_of_head? hc)
    · rw [lineOf, getLast?_intercalate hlast (of_mem_textPieces (hpieces _ hlastMem)).1]
      exact fun hc => hnone _ hlastMem (List.mem_of_getLast? hc)

/-- A line without its spaces is its words put together. -/
theorem filter_of_mem_wrap {text line : Text} (h : line ∈ wrap width hwidth text) :
    line.filter (fun c => c != space) = (wordsOf line).flatten := by
  rw [wordsOf, flatten_words]
  cases of_mem_wrap h with
  | inl hblank => rw [hblank]; rfl
  | inr hrow =>
    obtain ⟨row, _, rfl, _, hpieces⟩ := hrow
    have hspaces : ∀ piece ∈ row, ∀ c ∈ piece, isSpace c = false := fun piece hpiece =>
      (of_mem_textPieces (hpieces piece hpiece)).2.2
    have honly : ∀ piece ∈ row, ∀ c ∈ piece, (c == space) = false := by
      intro piece hpiece c hc
      rw [beq_eq_false_iff_ne]
      intro hspace
      have := hspaces piece hpiece c hc
      rw [hspace, isSpace_space] at this
      cases this
    have hbare : (lineOf row).filter (fun c => !(c == space)) = row.flatten :=
      @filter_intercalate _ space (fun c => c == space) (beq_self_eq_true space) row honly
    exact hbare.trans (filter_intercalate isSpace_space hspaces).symm

/-- The lines put together, without spaces, are the text without whitespace. -/
theorem filter_flatten_wrap (text : Text) :
    (wrap width hwidth text).flatten.filter (fun c => c != space) =
      text.filter (fun c => !isSpace c) := by
  have hlines : (wrap width hwidth text).map (List.filter fun c => c != space) =
      (wrap width hwidth text).map fun line => (wordsOf line).flatten :=
    List.map_congr_left fun line hline => filter_of_mem_wrap hline
  calc (wrap width hwidth text).flatten.filter (fun c => c != space)
      = ((wrap width hwidth text).map fun line => (wordsOf line).flatten).flatten := by
        rw [List.filter_flatten, hlines]
    _ = ((wrap width hwidth text).flatMap wordsOf).flatten := by
        rw [List.flatMap_def, List.flatten_flatten, List.map_map, Function.comp_def]
    _ = text.filter (fun c => !isSpace c) := by
        rw [flatMap_words_wrap, flatten_textPieces]

end

/-- Wrapping loses nothing: the lines fit, hold every character of the text
but its whitespace in order, begin and end with no space, and hold the words
of the text in order, each cut into pieces only if it is longer than a line. -/
theorem wrap_loses_nothing (text : Text) (width : ℕ) (hwidth : 1 ≤ width) :
    wrap width hwidth text ≠ [] ∧
    (∀ line ∈ wrap width hwidth text, line.length ≤ width) ∧
    (wrap width hwidth text).flatten.filter (fun c => c != space) =
      text.filter (fun c => !isSpace c) ∧
    (∀ line ∈ wrap width hwidth text, line.head? ≠ some space ∧ line.getLast? ≠ some space) ∧
    ∃ cut : List (List Text), cut.map List.flatten = wordsOf text ∧
      (∀ pieces ∈ cut, pieces.flatten.length ≤ width → pieces = [pieces.flatten]) ∧
      (wrap width hwidth text).flatMap wordsOf = cut.flatten := by
  refine ⟨wrap_ne_nil text, fun line => length_of_mem_wrap, filter_flatten_wrap text,
    fun line => ends_of_mem_wrap, (wordsOf text).map (piecesOf width hwidth), ?_, ?_, ?_⟩
  · rw [List.map_map]
    calc (wordsOf text).map (List.flatten ∘ piecesOf width hwidth)
        = (wordsOf text).map id := List.map_congr_left fun word _ => flatten_piecesOf word
      _ = wordsOf text := List.map_id _
  · intro pieces hpieces hlength
    obtain ⟨word, _, rfl⟩ := List.mem_map.mp hpieces
    rw [flatten_piecesOf] at hlength ⊢
    exact piecesOf_of_le hlength
  · rw [flatMap_words_wrap, textPieces, List.flatMap_def]

/-- A name with a word longer than a line of ten. -/
theorem wrap_loses_nothing_sachet :
    ((wrap 10 (by omega) (units "Rice  supercalifragilistic 2 kg")).flatten.filter
      fun c => c != space) = units "Ricesupercalifragilistic2kg" :=
  (wrap_loses_nothing (units "Rice  supercalifragilistic 2 kg") 10 (by omega)).2.2.1.trans
    (by decide)

end Kitaza.ReceiptWrap
