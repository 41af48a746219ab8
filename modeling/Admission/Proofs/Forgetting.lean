import Admission.Proofs.Windows
import Mathlib.Algebra.Order.BigOperators.Group.List
import Mathlib.Algebra.Order.Group.Nat
import Mathlib.Data.List.Chain
import Mathlib.Data.List.Flatten

/-!
# What a popularity forgets

A history has room for so many windows. When submissions come in the order of time, the open window
begins at most two widths after the submission that closed the window before it for every window
closed since then (`Windows.openedAt_le`), so a window that is still kept was closed within the
`Windows.horizon`. Its submissions need not be that young: a window stays open until the next
submission comes, and the silent widths that pass meanwhile are put before it, not after it. So a
submission is forgotten in time unless it was followed by a silence, and then it is counted as if it
had been made when the silence ended (`Popularity.forgets_unless_silent`,
`Popularity.remembers_after_silence`).
-/

set_option autoImplicit false
set_option relaxedAutoImplicit false

namespace Admission

namespace Windows

/-- The windows that a history has room for. -/
def kept (windows : Windows) : List (List Nat) :=
  windows.closed.drop (windows.closed.length - History.capacity)

/-- The submissions that a history counts. -/
def remembered (windows : Windows) : List Nat := windows.kept.flatten

/-- Twice as long as all the windows that a history has room for should last. -/
def horizon (width : Nat) : Nat := 2 * History.capacity * max width 1

/-- Two submissions that follow each other and are more than a width apart. When the first window
began counts as a submission here. -/
structure Silence (width began : Nat) (times : List Nat) (last next : Nat) : Prop where
  adjacent : [last, next] <:+: began :: times
  longer : last + max width 1 < next

variable {width began now : Nat} {times : List Nat}

/-! ### When windows begin and end -/

/-- The open window began with the beginning or with a submission, and holds all submissions since
then. -/
theorem suffix_current (width began : Nat) (times : List Nat) :
    (recordAll width began times).openedAt :: (recordAll width began times).current <:+
      began :: times := by
  induction times using List.reverseRecOn with
  | nil => exact List.suffix_rfl
  | append_singleton times now ih =>
    rw [recordAll_concat]
    by_cases hyoung : now - (recordAll width began times).openedAt < max width 1
    · obtain ⟨before, hsplit⟩ := ih
      rw [record_of_lt hyoung]
      refine ⟨before, ?_⟩
      rw [← List.cons_append, ← List.append_assoc, hsplit, List.cons_append]
    · rw [record_of_le (Nat.not_lt.mp hyoung)]
      exact List.suffix_append (began :: times) [now]

theorem lt_of_mem_current {time : Nat} (h : time ∈ (recordAll width began times).current) :
    time - (recordAll width began times).openedAt < max width 1 := by
  induction times using List.reverseRecOn with
  | nil => cases h
  | append_singleton times now ih =>
    rw [recordAll_concat] at h ⊢
    by_cases hyoung : now - (recordAll width began times).openedAt < max width 1
    · rw [record_of_lt hyoung] at h ⊢
      rcases List.mem_append.mp h with hmem | hmem
      · exact ih hmem
      · rw [List.mem_singleton.mp hmem]
        exact hyoung
    · rw [record_of_le (Nat.not_lt.mp hyoung)] at h
      cases h

/-- A window that was closed by a submission, which is its last. The others came in its first
width. -/
structure Spans (width began : Nat) (times body : List Nat) (opening closing : Nat) : Prop where
  adjacent : opening :: (body ++ [closing]) <:+: began :: times
  early : ∀ time ∈ body, time - opening < max width 1

theorem Spans.concat {body : List Nat} {opening closing : Nat}
    (h : Spans width began times body opening closing) (now : Nat) :
    Spans width began (times ++ [now]) body opening closing where
  adjacent := h.adjacent.trans (List.prefix_append (began :: times) [now]).isInfix
  early := h.early

/-- A closed window without such an end is silent. -/
theorem exists_spans {window : List Nat} (h : window ∈ (recordAll width began times).closed)
    (hnonempty : window ≠ []) :
    ∃ opening body closing, window = body ++ [closing] ∧
      Spans width began times body opening closing := by
  induction times using List.reverseRecOn with
  | nil => cases h
  | append_singleton times now ih =>
    have hbefore : window ∈ (recordAll width began times).closed →
        ∃ opening body closing, window = body ++ [closing] ∧
          Spans width began (times ++ [now]) body opening closing := by
      intro hmem
      obtain ⟨opening, body, closing, hwindow, hspans⟩ := ih hmem
      exact ⟨opening, body, closing, hwindow, hspans.concat now⟩
    rw [recordAll_concat] at h
    by_cases hyoung : now - (recordAll width began times).openedAt < max width 1
    · rw [record_of_lt hyoung] at h
      exact hbefore h
    · rw [record_of_le (Nat.not_lt.mp hyoung)] at h
      simp only [List.mem_append, List.mem_replicate, List.mem_singleton] at h
      rcases h with (hmem | ⟨-, hsilent⟩) | hlast
      · exact hbefore hmem
      · exact absurd hsilent hnonempty
      · refine ⟨(recordAll width began times).openedAt, (recordAll width began times).current, now,
          hlast, ?_, fun time ↦ lt_of_mem_current⟩
        obtain ⟨before, hsplit⟩ := suffix_current width began times
        refine ⟨before, [], ?_⟩
        rw [List.append_nil, ← List.cons_append, ← List.append_assoc, hsplit, List.cons_append]

/-- A time that is at least one width is at most two widths for every whole width in it. -/
theorem le_widths {width elapsed : Nat} (hpos : 0 < width) (h : width ≤ elapsed) :
    elapsed ≤ 2 * width * (elapsed / width) := by
  have hone : 1 ≤ elapsed / width := Nat.div_pos h hpos
  have hdivide := Nat.div_add_mod elapsed width
  have hrest : elapsed % width < width := Nat.mod_lt elapsed hpos
  have hwidth : width ≤ width * (elapsed / width) := Nat.le_mul_of_pos_right width hone
  rw [Nat.mul_assoc]
  omega

/-- Since a window was closed, no more than two widths have gone by for every window closed after
it. -/
theorem openedAt_le {position closing : Nat} {window : List Nat}
    (hwindow : (recordAll width began times).closed[position]? = some window)
    (hclosing : window.getLast? = some closing) :
    (recordAll width began times).openedAt ≤ closing +
      2 * max width 1 * ((recordAll width began times).closed.length - 1 - position) := by
  induction times using List.reverseRecOn with
  | nil => cases hwindow
  | append_singleton times now ih =>
    rw [recordAll_concat] at hwindow ⊢
    by_cases hyoung : now - (recordAll width began times).openedAt < max width 1
    · rw [record_of_lt hyoung] at hwindow ⊢
      exact ih hwindow
    · have hold := Nat.not_lt.mp hyoung
      have hwide : 0 < max width 1 := Nat.lt_of_lt_of_le Nat.one_pos (Nat.le_max_right ..)
      have helapsed := le_widths hwide hold
      have hwhole := Nat.div_pos hold hwide
      rw [record_of_le hold] at hwindow ⊢
      dsimp only at hwindow ⊢
      simp only [List.length_append, List.length_replicate, List.length_singleton]
      generalize hcount : (now - (recordAll width began times).openedAt) / max width 1 = count at *
      by_cases hbefore : position < (recordAll width began times).closed.length
      · rw [List.append_assoc, List.getElem?_append_left hbefore] at hwindow
        have hopened := ih hwindow
        have hlonger :
            (recordAll width began times).closed.length + (count - 1) + 1 - 1 - position =
              (recordAll width began times).closed.length - 1 - position + count := by
          omega
        rw [hlonger, Nat.mul_add]
        omega
      · rw [List.append_assoc, List.getElem?_append_right (Nat.not_lt.mp hbefore)] at hwindow
        have hmem := List.mem_of_getElem? hwindow
        rw [List.mem_append, List.mem_replicate, List.mem_singleton] at hmem
        -- A silent window has no end, and the other one ends now.
        rcases hmem with ⟨-, rfl⟩ | rfl
        · cases hclosing
        · rw [List.getLast?_concat, Option.some_inj] at hclosing
          rw [hclosing]
          exact Nat.le_add_right ..

/-! ### What is remembered -/

/-- A window that is kept was closed within the horizon, two widths at least before its end. -/
theorem openedAt_le_of_kept {window : List Nat} {closing : Nat}
    (hwindow : window ∈ (recordAll width began times).kept)
    (hclosing : window.getLast? = some closing) :
    (recordAll width began times).openedAt + 2 * max width 1 ≤ closing + horizon width := by
  obtain ⟨place, hplace⟩ := List.mem_iff_getElem?.mp hwindow
  rw [kept, List.getElem?_drop] at hplace
  have hopened := openedAt_le hplace hclosing
  have hlater : (recordAll width began times).closed.length - 1 -
      ((recordAll width began times).closed.length - History.capacity + place) ≤
        History.capacity - 1 := by
    omega
  have hwidths := Nat.le_trans hopened
    (Nat.add_le_add_left (Nat.mul_le_mul_left (2 * max width 1) hlater) closing)
  simp only [History.capacity] at hwidths
  rw [horizon, History.capacity]
  omega

/-- A submission of a window that was closed came less than two widths before the end of the window,
or a silence between the two of them lasted until then. -/
theorem recent_or_silence {body : List Nat} {opening closing time : Nat}
    (hsorted : (began :: times).Pairwise (· ≤ ·))
    (hspans : Spans width began times body opening closing) (hmem : time ∈ body ++ [closing]) :
    closing < time + 2 * max width 1 ∨
      ∃ last, time ≤ last ∧ Silence width began times last closing := by
  have hwide : 0 < max width 1 := Nat.lt_of_lt_of_le Nat.one_pos (Nat.le_max_right ..)
  have hordered := hsorted.sublist hspans.adjacent.sublist
  rcases List.mem_append.mp hmem with hbody | hend
  · obtain ⟨front, last, rfl⟩ := List.eq_nil_or_concat body |>.resolve_left
      (List.ne_nil_of_mem hbody)
    rw [List.concat_eq_append] at hbody hordered
    have hadjacent : [last, closing] <:+: began :: times := by
      refine List.IsInfix.trans ⟨opening :: front, [], ?_⟩ hspans.adjacent
      simp
    have hopening : opening ≤ time :=
      List.rel_of_pairwise_cons hordered (List.mem_append_left _ hbody)
    have hearly : last - opening < max width 1 := hspans.early last (by simp)
    have hlast : time ≤ last := by
      rcases List.mem_append.mp hbody with hfront | hend
      · have hfronts := (List.pairwise_append.mp hordered.of_cons).1
        exact (List.pairwise_append.mp hfronts).2.2 time hfront last (List.mem_singleton_self last)
      · exact (List.mem_singleton.mp hend).le
    by_cases hsoon : closing < time + 2 * max width 1
    · exact .inl hsoon
    · exact .inr ⟨last, hlast, hadjacent, by omega⟩
  · rw [List.mem_singleton.mp hend]
    exact .inl (by omega)

theorem exists_of_remembered {time : Nat}
    (h : time ∈ (recordAll width began times).remembered) :
    ∃ opening body closing, body ++ [closing] ∈ (recordAll width began times).kept ∧
      Spans width began times body opening closing ∧ time ∈ body ++ [closing] := by
  obtain ⟨window, hkept, hmem⟩ := List.mem_flatten.mp h
  obtain ⟨opening, body, closing, rfl, hspans⟩ :=
    exists_spans (List.mem_of_mem_drop hkept) (List.ne_nil_of_mem hmem)
  exact ⟨opening, body, closing, hkept, hspans, hmem⟩

/-- What is remembered when a window closes came within the horizon, or came before a silence that
lasted until within the horizon. -/
theorem remembered_recent (hsorted : (began :: times).Pairwise (· ≤ ·)) {time : Nat}
    (h : time ∈ (recordAll width began times).remembered) :
    (recordAll width began times).openedAt < time + horizon width ∨
      ∃ last next, Silence width began times last next ∧ time ≤ last ∧
        (recordAll width began times).openedAt < next + horizon width := by
  have hwide : 0 < max width 1 := Nat.lt_of_lt_of_le Nat.one_pos (Nat.le_max_right ..)
  obtain ⟨opening, body, closing, hkept, hspans, hmem⟩ := exists_of_remembered h
  have hclosed := openedAt_le_of_kept hkept (List.getLast?_concat ..)
  rcases recent_or_silence hsorted hspans hmem with hrecent | ⟨last, hle, hsilence⟩
  · exact .inl (by omega)
  · exact .inr ⟨last, closing, hsilence, hle, by omega⟩

/-- What is remembered is among the submissions, in their order. -/
theorem sublist_remembered (width began : Nat) (times : List Nat) :
    (recordAll width began times).remembered.Sublist times := by
  have hkept : (recordAll width began times).kept.Sublist (recordAll width began times).closed :=
    List.drop_sublist ..
  have hclosed : (recordAll width began times).closed.flatten <+: times :=
    ⟨(recordAll width began times).current, flatten_recordAll width began times⟩
  exact hkept.flatten.trans hclosed.sublist

end Windows

namespace Popularity

variable {R : Type} [Scalar R]

theorem Shows.items_eq {popularity : Popularity R} {windows : Windows}
    (h : popularity.Shows windows) : popularity.samples.items = windows.kept.map counted := by
  rw [h.items, History.latest, Windows.kept, List.length_map, List.map_drop]

/-- A sample counts no more submissions than its window has. -/
theorem Shows.sum_le {popularity : Popularity R} {windows : Windows}
    (h : popularity.Shows windows) :
    popularity.samples.sum ≤ windows.remembered.length := by
  rw [h.sum, h.items_eq, Windows.remembered, List.length_flatten]
  exact List.sum_le_sum fun window _ ↦ Nat.min_le_left ..

variable (R) in
/-- Right after a submission that closes a window, the samples count the submissions of the windows
that are kept, and of these each came within the horizon or was followed by a silence that lasted
until within the horizon. So when there was no such silence, the samples count at most the
submissions of the horizon. -/
theorem forgets_unless_silent {width began now : Nat} {times : List Nat}
    (hsorted : (began :: (times ++ [now])).Pairwise (· ≤ ·))
    (hcloses : max width 1 ≤ now - (recordAll width began times : Popularity R).openedAt) :
    let popularity : Popularity R := recordAll width began (times ++ [now])
    let windows := Windows.recordAll width began (times ++ [now])
    popularity.samples.items = windows.kept.map counted ∧
      (∀ time ∈ windows.remembered, now < time + Windows.horizon width ∨
        ∃ last next, Windows.Silence width began (times ++ [now]) last next ∧ time ≤ last ∧
          now < next + Windows.horizon width) ∧
      ((∀ last next, Windows.Silence width began (times ++ [now]) last next →
        next + Windows.horizon width ≤ now) →
          (∀ time ∈ windows.remembered, now < time + Windows.horizon width) ∧
          popularity.samples.sum ≤
            (times ++ [now]).countP fun time ↦ now < time + Windows.horizon width) := by
  dsimp only
  have hshows := shows_recordAll (R := R) width began (times ++ [now])
  have hopened : (Windows.recordAll width began (times ++ [now])).openedAt = now := by
    rw [(shows_recordAll width began times).openedAt] at hcloses
    rw [Windows.recordAll_concat, Windows.record_of_le hcloses]
  have hrecent : ∀ time ∈ (Windows.recordAll width began (times ++ [now])).remembered,
      now < time + Windows.horizon width ∨
        ∃ last next, Windows.Silence width began (times ++ [now]) last next ∧ time ≤ last ∧
          now < next + Windows.horizon width := by
    intro time hmem
    have hmember := Windows.remembered_recent hsorted hmem
    rw [hopened] at hmember
    exact hmember
  refine ⟨hshows.items_eq, hrecent, fun hbusy ↦ ?_⟩
  have hwithin : ∀ time ∈ (Windows.recordAll width began (times ++ [now])).remembered,
      now < time + Windows.horizon width := by
    intro time hmem
    rcases hrecent time hmem with hyoung | ⟨last, next, hsilence, -, hlate⟩
    · exact hyoung
    · exact absurd (hbusy last next hsilence) (Nat.not_le.mpr hlate)
  refine ⟨hwithin, hshows.sum_le.trans ?_⟩
  have hcount := List.countP_eq_length.mpr fun time hmem ↦ decide_eq_true (hwithin time hmem)
  rw [← hcount]
  exact (Windows.sublist_remembered width began (times ++ [now])).countP_le

/-- A category that is asked for once in every width: of its 151 submissions 50 are counted, and 100
of them came within the horizon. -/
theorem forgets_unless_silent_steady :
    (recordAll 10 0 ((List.range 150).map (10 * ·) ++ [1500]) : Popularity Rat).samples.sum = 50 ∧
      (recordAll 10 0 ((List.range 150).map (10 * ·) ++ [1500]) : Popularity Rat).samples.sum ≤
        ((List.range 150).map (10 * ·) ++ [1500]).countP fun time ↦
          1500 < time + Windows.horizon 10 := by
  have hsorted : (0 :: ((List.range 150).map (10 * ·) ++ [1500])).Pairwise (· ≤ ·) := by
    decide +kernel
  have hcloses : max 10 1 ≤
      1500 - (recordAll 10 0 ((List.range 150).map (10 * ·)) : Popularity Rat).openedAt := by
    decide +kernel
  have hchain : (0 :: ((List.range 150).map (10 * ·) ++ [1500])).IsChain fun last next ↦
      next ≤ last + max 10 1 := by
    decide +kernel
  have hbusy : ∀ last next,
      Windows.Silence 10 0 ((List.range 150).map (10 * ·) ++ [1500]) last next →
        next + Windows.horizon 10 ≤ 1500 := by
    intro last next hsilence
    have hpair : [last, next].IsChain fun last next ↦ next ≤ last + max 10 1 :=
      List.IsChain.infix hchain hsilence.adjacent
    rw [List.isChain_pair] at hpair
    exact absurd hsilence.longer (Nat.not_lt.mpr hpair)
  exact ⟨by decide +kernel, ((forgets_unless_silent Rat hsorted hcloses).2.2 hbusy).2⟩

/-- Two submissions, then a silence of a thousand widths, then a third one: a window closes, and all
three are counted, though only one came within the horizon. -/
theorem remembers_after_silence :
    ([0, 0, 0, 1000000] : List Nat).Pairwise (· ≤ ·) ∧
      max 1000 1 ≤ 1000000 - (recordAll 1000 0 [0, 0] : Popularity Rat).openedAt ∧
      (recordAll 1000 0 [0, 0, 1000000] : Popularity Rat).samples.sum = 3 ∧
      ([0, 0, 1000000].countP fun time ↦ 1000000 < time + Windows.horizon 1000) = 1 := by
  decide +kernel

end Popularity

end Admission
