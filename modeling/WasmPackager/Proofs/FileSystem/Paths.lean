/-
# `Proofs.FileSystem.Paths` — the text of a path

Every path the packager makes is a path it was given with a name joined to it.
A joined path has the names of the first one and the new name behind them
(`names_join`), begins where that begins (`isAbsolute_join`), and does not
insist on a directory (`hasTrailingSlash_join`).  The system reads all of it,
unless the first path holds a zero byte: then it does not get to see what was
joined (`readable_join_of_zero`).

A path can also be put together from names, which are then its names
(`names_ofNames`).  The first names of a path with a zero byte make up a path that
the system takes for the same one, if the name with the zero byte is among them
(`gist_readable`).
-/
import WasmPackager.FileSystem.Host
import WasmPackager.Proofs.Bytes

namespace WasmPackager

namespace Bytes

theorem splitOn_cons (sep b : UInt8) (s : Bytes) :
    splitOn sep (b :: s) =
      if b == sep then [] :: splitOn sep s
      else match splitOn sep s with
        | [] => [[b]]
        | piece :: rest => (b :: piece) :: rest := rfl

theorem splitOn_ne_nil (sep : UInt8) (s : Bytes) : splitOn sep s ≠ [] := by
  cases s with
  | nil => exact List.cons_ne_nil _ _
  | cons b s =>
      rw [splitOn_cons]
      split
      · exact List.cons_ne_nil _ _
      · split <;> exact List.cons_ne_nil _ _

theorem splitOn_append (sep : UInt8) (s t : Bytes) :
    splitOn sep (s ++ sep :: t) = splitOn sep s ++ splitOn sep t := by
  induction s with
  | nil => rw [List.nil_append, splitOn_cons, if_pos (beq_self_eq_true sep)]; rfl
  | cons b s ih =>
      rw [List.cons_append, splitOn_cons, splitOn_cons, ih]
      split
      · rfl
      · obtain ⟨piece, rest, heq⟩ := List.exists_cons_of_ne_nil (splitOn_ne_nil sep s)
        rw [heq]
        rfl

theorem splitOn_of_not_mem {sep : UInt8} {s : Bytes} (h : sep ∉ s) : splitOn sep s = [s] := by
  induction s with
  | nil => rfl
  | cons b s ih =>
      have hb : b ≠ sep := fun heq => h (heq ▸ List.mem_cons_self)
      rw [splitOn_cons, ih fun hs => h (List.mem_cons_of_mem b hs), if_neg (by simpa using hb)]

theorem not_mem_of_mem_splitOn {sep : UInt8} {s piece : Bytes} (h : piece ∈ splitOn sep s) :
    sep ∉ piece := by
  induction s generalizing piece with
  | nil =>
      obtain rfl : piece = [] := by simpa [splitOn] using h
      exact List.not_mem_nil
  | cons b s ih =>
      rw [splitOn_cons] at h
      split at h
      · rcases List.mem_cons.mp h with rfl | h
        · exact List.not_mem_nil
        · exact ih h
      · next hb =>
        obtain ⟨first, rest, heq⟩ := List.exists_cons_of_ne_nil (splitOn_ne_nil sep s)
        rw [heq] at h ih
        rcases List.mem_cons.mp h with rfl | h
        · intro hmem
          rcases List.mem_cons.mp hmem with rfl | hmem
          · exact hb (beq_self_eq_true _)
          · exact ih List.mem_cons_self hmem
        · exact ih (List.mem_cons_of_mem _ h)

theorem mem_of_mem_splitOn {sep b : UInt8} {s piece : Bytes} (h : piece ∈ splitOn sep s)
    (hb : b ∈ piece) : b ∈ s := by
  induction s generalizing piece with
  | nil =>
      obtain rfl : piece = [] := by simpa [splitOn] using h
      exact hb
  | cons c s ih =>
      rw [splitOn_cons] at h
      split at h
      · rcases List.mem_cons.mp h with rfl | h
        · cases hb
        · exact List.mem_cons_of_mem c (ih h hb)
      · obtain ⟨first, rest, heq⟩ := List.exists_cons_of_ne_nil (splitOn_ne_nil sep s)
        rw [heq] at h ih
        rcases List.mem_cons.mp h with rfl | h
        · rcases List.mem_cons.mp hb with rfl | hb
          · exact List.mem_cons_self
          · exact List.mem_cons_of_mem c (ih List.mem_cons_self hb)
        · exact List.mem_cons_of_mem c (ih (List.mem_cons_of_mem first h) hb)

end Bytes

namespace Path

/-- A name an entry of a directory can have. -/
structure IsName (name : Name) : Prop where
  nonempty : name ≠ []
  noSlash : slash ∉ name
  noZero : 0 ∉ name
  notDot : name ≠ dot
  notDotDot : name ≠ dotDot
  short : name.length ≤ FileSystem.nameLimit

instance (name : Name) : Decidable (IsName name) :=
  decidable_of_iff (name ≠ [] ∧ slash ∉ name ∧ 0 ∉ name ∧ name ≠ dot ∧ name ≠ dotDot ∧
      name.length ≤ FileSystem.nameLimit)
    ⟨fun ⟨a, b, c, d, e, f⟩ => ⟨a, b, c, d, e, f⟩, fun ⟨a, b, c, d, e, f⟩ => ⟨a, b, c, d, e, f⟩⟩

variable {dir : Bytes} {name : Name}

theorem join_cases (dir : Bytes) (name : Name) :
    (dir = [] ∧ join dir name = name) ∨
      (∃ front, (dir = front ++ [slash] ∨ dir = front ∧ dir ≠ []) ∧
        join dir name = front ++ slash :: name) := by
  rw [join]
  rcases List.eq_nil_or_concat dir with rfl | ⟨front, b, rfl⟩
  · exact .inl ⟨rfl, rfl⟩
  · refine .inr ?_
    by_cases hb : b = slash
    · exact ⟨front, .inl (by simp [hb]), by simp [hb]⟩
    · exact ⟨front ++ [b], .inr (by simp), by simp [hb]⟩

theorem names_append (front back : Bytes) :
    names (front ++ slash :: back) = names front ++ names back := by
  rw [names, Bytes.splitOn_append, List.filter_append]
  rfl

theorem names_of_free {name : Bytes} (hne : name ≠ []) (hslash : slash ∉ name) :
    names name = [name] := by
  rw [names, Bytes.splitOn_of_not_mem hslash, List.filter_cons_of_pos (by simp [hne]),
    List.filter_nil]

theorem names_of_isName (h : IsName name) : names name = [name] :=
  names_of_free h.nonempty h.noSlash

theorem names_join (dir : Bytes) (h : IsName name) :
    names (join dir name) = names dir ++ [name] := by
  rcases join_cases dir name with ⟨rfl, hjoin⟩ | ⟨front, rfl | ⟨rfl, -⟩, hjoin⟩
  · rw [hjoin, names_of_isName h]
    rfl
  · rw [hjoin, names_append, names_append, names_of_isName h]
    simp [names, Bytes.splitOn]
  · rw [hjoin, names_append, names_of_isName h]

theorem isAbsolute_join (dir : Bytes) (h : IsName name) :
    isAbsolute (join dir name) = isAbsolute dir := by
  rcases join_cases dir name with ⟨rfl, hjoin⟩ | ⟨front, hdir, hjoin⟩
  · obtain ⟨b, rest, rfl⟩ := List.exists_cons_of_ne_nil h.nonempty
    have hb : b ≠ slash := fun heq => h.noSlash (heq ▸ List.mem_cons_self)
    simpa [hjoin, isAbsolute] using hb
  · rw [hjoin, isAbsolute, isAbsolute]
    cases front with
    | nil =>
        rcases hdir with rfl | ⟨rfl, hne⟩
        · rfl
        · exact absurd rfl hne
    | cons b front => rcases hdir with rfl | ⟨rfl, -⟩ <;> rfl

theorem hasTrailingSlash_join (dir : Bytes) (h : IsName name) :
    hasTrailingSlash (join dir name) = false := by
  have last : hasTrailingSlash name = false := by
    rw [hasTrailingSlash, beq_eq_false_iff_ne]
    exact fun heq => h.noSlash (List.mem_of_getLast? heq)
  rcases join_cases dir name with ⟨rfl, hjoin⟩ | ⟨front, -, hjoin⟩
  · rwa [hjoin]
  · obtain ⟨b, rest, rfl⟩ := List.exists_cons_of_ne_nil h.nonempty
    simpa [hjoin, hasTrailingSlash, List.getLast?_append] using last

theorem join_ne_nil (dir : Bytes) (h : IsName name) : join dir name ≠ [] := by
  rcases join_cases dir name with ⟨rfl, hjoin⟩ | ⟨front, -, hjoin⟩
  · rw [hjoin]
    exact h.nonempty
  · simp [hjoin]

theorem join_injective (dir : Bytes) {first second : Name} (h : join dir first = join dir second) :
    first = second := by
  rw [join, join] at h
  split at h
  · exact List.append_cancel_left h
  · exact (List.cons.inj (List.append_cancel_left h)).2

theorem length_join_le_length_join (dir : Bytes) {short long : Name}
    (h : short.length ≤ long.length) : (join dir short).length ≤ (join dir long).length := by
  rw [join, join]
  split <;> simp only [List.length_append, List.length_cons] <;> omega

theorem length_le_length_join (dir : Bytes) (name : Name) :
    dir.length ≤ (join dir name).length := by
  rw [join]
  split <;> simp only [List.length_append] <;> omega

/-! ## Paths made of names -/

/-- What the system makes of a path, whatever its length. -/
def gist (path : Bytes) : Bool × List Name × Bool :=
  (isAbsolute path, names path, hasTrailingSlash path)

theorem gist_slash (front back : Bytes) :
    gist (front ++ slash :: back) =
      (front.isEmpty || isAbsolute front, names front ++ names back,
        back.isEmpty || hasTrailingSlash back) := by
  rw [gist, names_append]
  congr 1
  · cases front <;> rfl
  · congr 1
    rcases List.eq_nil_or_concat back with rfl | ⟨back, b, rfl⟩
    · simp [hasTrailingSlash]
    · rw [hasTrailingSlash, hasTrailingSlash, List.concat_eq_append, ← List.cons_append,
        ← List.append_assoc, List.getLast?_concat, List.getLast?_concat]
      simp

theorem isAbsolute_of_names_nil {path : Bytes} (hne : path ≠ []) (hnames : names path = []) :
    isAbsolute path = true := by
  obtain ⟨b, rest, rfl⟩ := List.exists_cons_of_ne_nil hne
  by_cases hb : b = slash
  · simp [isAbsolute, hb]
  · exfalso
    rw [names, Bytes.splitOn_cons, if_neg (by simpa using hb)] at hnames
    split at hnames <;> simp at hnames

theorem mem_names {path : Bytes} {name : Name} (h : name ∈ names path) :
    name ≠ [] ∧ slash ∉ name ∧ ∀ b ∈ name, b ∈ path := by
  rw [names, List.mem_filter] at h
  exact ⟨by simpa using h.2, Bytes.not_mem_of_mem_splitOn h.1,
    fun b => Bytes.mem_of_mem_splitOn h.1⟩

theorem names_joinWith {front : List Name} (hfront : ∀ name ∈ front, name ≠ [] ∧ slash ∉ name) :
    names (Bytes.joinWith [slash] front) = front := by
  cases front with
  | nil => rfl
  | cons name rest =>
      obtain ⟨⟨hne, hslash⟩, hrest⟩ := List.forall_mem_cons.mp hfront
      have later : ∀ (front : Bytes),
          names (front ++ rest.flatMap ([slash] ++ ·)) = names front ++ rest := by
        clear hfront
        induction rest with
        | nil => simp
        | cons other rest ih =>
            intro front
            obtain ⟨⟨hne', hslash'⟩, hrest'⟩ := List.forall_mem_cons.mp hrest
            rw [List.flatMap_cons, ← List.append_assoc, ih hrest', ← List.append_assoc,
              List.append_assoc, List.singleton_append, names_append, names_of_free hne' hslash']
            simp
      rw [Bytes.joinWith, later, names_of_free hne hslash]
      rfl

theorem joinWith_append {front : List Name} (hne : front ≠ []) (name : Name) (back : List Name) :
    Bytes.joinWith [slash] (front ++ name :: back) =
      Bytes.joinWith [slash] front ++ slash :: Bytes.joinWith [slash] (name :: back) := by
  obtain ⟨first, rest, rfl⟩ := List.exists_cons_of_ne_nil hne
  simp [Bytes.joinWith]

theorem names_ofNames (absolute : Bool) {front : List Name}
    (hfront : ∀ name ∈ front, name ≠ [] ∧ slash ∉ name) :
    names (ofNames absolute front) = front := by
  cases absolute
  · exact names_joinWith hfront
  · exact (names_append [] _).trans (names_joinWith hfront)

theorem isAbsolute_ofNames (absolute : Bool) {front : List Name} (hne : front ≠ [])
    (hfront : ∀ name ∈ front, name ≠ [] ∧ slash ∉ name) :
    ofNames absolute front ≠ [] ∧ isAbsolute (ofNames absolute front) = absolute := by
  obtain ⟨name, rest, rfl⟩ := List.exists_cons_of_ne_nil hne
  obtain ⟨⟨hname, hslash⟩, -⟩ := List.forall_mem_cons.mp hfront
  obtain ⟨b, name, rfl⟩ := List.exists_cons_of_ne_nil hname
  have hb : b ≠ slash := fun heq => hslash (heq ▸ List.mem_cons_self)
  cases absolute <;> simp [ofNames, Bytes.joinWith, isAbsolute, hb]

theorem mem_ofNames {absolute : Bool} {front : List Name} {b : UInt8}
    (h : b ∈ ofNames absolute front) :
    b = slash ∨ ∃ name ∈ front, b ∈ name := by
  cases front with
  | nil => cases absolute <;> simp_all [ofNames, Bytes.joinWith]
  | cons name rest =>
      have hcases : b = slash ∨ b ∈ name ∨ ∃ other ∈ rest, b = slash ∨ b ∈ other := by
        cases absolute with
        | false => exact .inr (by simpa [ofNames, Bytes.joinWith] using h)
        | true => simpa [ofNames, Bytes.joinWith] using h
      rcases hcases with heq | hmem | ⟨other, hother, heq | hmem⟩
      · exact .inl heq
      · exact .inr ⟨name, List.mem_cons_self, hmem⟩
      · exact .inl heq
      · exact .inr ⟨other, List.mem_cons_of_mem _ hother, hmem⟩

theorem ofNames_append (absolute : Bool) {front : List Name} (hne : front ≠ []) (name : Name)
    (back : List Name) :
    ofNames absolute (front ++ name :: back) =
      ofNames absolute front ++ slash :: Bytes.joinWith [slash] (name :: back) := by
  rw [ofNames, ofNames, joinWith_append hne, List.append_assoc]

theorem names_of_begun {front : Bytes} (hne : front ≠ []) (hslash : slash ∉ front) (back : Bytes) :
    ∃ more rest, names (front ++ back) = (front ++ more) :: rest := by
  by_cases hback : slash ∈ back
  · obtain ⟨more, rest, rfl, hmore⟩ := List.eq_append_cons_of_mem hback
    refine ⟨more, names rest, ?_⟩
    rw [← List.append_assoc, names_append, names_of_free (by simp [hne]) (by simp [hslash, hmore])]
    rfl
  · exact ⟨back, [], names_of_free (by simp [hne]) (by simp [hslash, hback])⟩

end Path

namespace Host

open WasmPackager.Path

variable {dir : Bytes} {name : Name}

theorem readable_of_not_mem {path : Bytes} (h : 0 ∉ path) : readable path = path := by
  have solid : ∀ b ∈ path, b != 0 := fun b hb => by simpa using fun heq : b = 0 => h (heq ▸ hb)
  simpa [readable] using Bytes.takeWhile_of_stops solid Bytes.stops_nil

theorem readable_join (hdir : 0 ∉ dir) (h : IsName name) :
    readable (join dir name) = join dir name := by
  refine readable_of_not_mem fun hmem => ?_
  rw [join] at hmem
  have hslash : (0 : UInt8) ≠ slash := by decide
  split at hmem
  · exact (List.mem_append.mp hmem).elim hdir h.noZero
  · rcases List.mem_append.mp hmem with hmem | hmem
    · exact hdir hmem
    · exact (List.mem_cons.mp hmem).elim hslash h.noZero

theorem readable_append_of_zero (hdir : 0 ∈ dir) (back : Bytes) :
    readable (dir ++ back) = readable dir := by
  have solid : ∀ b ∈ readable dir, b != 0 := List.all_eq_true.mp List.all_takeWhile
  have cut : dir = readable dir ++ dir.dropWhile (· != 0) :=
    List.takeWhile_append_dropWhile.symm
  have stops : Bytes.Stops (· != 0) (dir.dropWhile (· != 0) ++ back) := by
    refine Bytes.stops_append (Bytes.stops_dropWhile dir) fun hnil => ?_
    rw [hnil, List.append_nil] at cut
    rw [cut] at hdir
    exact absurd (solid 0 hdir) (by decide)
  calc readable (dir ++ back)
      = readable (readable dir ++ (dir.dropWhile (· != 0) ++ back)) := by
        rw [← List.append_assoc, ← cut]
    _ = readable dir := Bytes.takeWhile_of_stops solid stops

theorem readable_join_of_zero (hdir : 0 ∈ dir) (name : Name) :
    readable (join dir name) = readable dir := by
  rw [join]
  split <;> exact readable_append_of_zero hdir _

/-! ## Paths that are not read to the end -/

theorem readable_of_cut {front : Bytes} (hfront : 0 ∉ front) (back : Bytes) :
    readable (front ++ 0 :: back) = front := by
  have solid : ∀ b ∈ front, b != 0 := fun b hb => by
    simpa using fun heq : b = 0 => hfront (heq ▸ hb)
  exact Bytes.takeWhile_of_stops solid (Bytes.stops_cons.mpr rfl)

/-- What is read of a path ends in one of its names.  A path made of its names up to that one, and
of any others, is read as the same. -/
theorem gist_readable {dir : Bytes} (hzero : 0 ∈ dir) : ∃ front name back,
    names dir = front ++ name :: back ∧ 0 ∈ name ∧
      ∀ more, gist (readable (ofNames (isAbsolute dir) (front ++ name :: more))) =
        gist (readable dir) := by
  obtain ⟨read, unread, rfl, hread⟩ := List.eq_append_cons_of_mem hzero
  rw [readable_of_cut hread]
  by_cases hslash : slash ∈ read
  · -- the last slash that is read ends what the names in front are made of
    obtain ⟨last, above, hlast, hfree⟩ := List.eq_append_cons_of_mem (List.mem_reverse.mpr hslash)
    obtain ⟨above, rfl⟩ : ∃ a, a.reverse = above := ⟨above.reverse, List.reverse_reverse _⟩
    obtain ⟨last, rfl⟩ : ∃ a, a.reverse = last := ⟨last.reverse, List.reverse_reverse _⟩
    obtain rfl : read = above ++ slash :: last := by
      rw [← List.reverse_inj, hlast]
      simp
    rw [List.mem_reverse] at hfree
    have hzeroSlash : (0 : UInt8) ≠ slash := by decide
    have hunreadAbove : 0 ∉ above := fun hmem => hread (List.mem_append_left _ hmem)
    have hunreadLast : 0 ∉ last := fun hmem =>
      hread (List.mem_append_right _ (List.mem_cons_of_mem _ hmem))
    obtain ⟨more, rest, hnames⟩ := names_of_begun (show last ++ [0] ≠ [] by simp)
      (by simp [hfree, hzeroSlash.symm]) unread
    refine ⟨names above, last ++ [0] ++ more, rest, ?_, by simp, fun names' => ?_⟩
    · rw [← hnames, ← names_append]
      simp
    · have habsolute : isAbsolute (above ++ slash :: last ++ 0 :: unread) =
          (above.isEmpty || isAbsolute above) := by cases above <;> rfl
      have hproper : ∀ name ∈ names above, name ≠ [] ∧ slash ∉ name := fun name hname =>
        ⟨(mem_names hname).1, (mem_names hname).2.1⟩
      have cut : ∀ front : Bytes, front ++ slash :: Bytes.joinWith [slash]
          ((last ++ [0] ++ more) :: names') = (front ++ slash :: last) ++ 0 :: (more ++
            names'.flatMap ([slash] ++ ·)) := fun front => by simp [Bytes.joinWith]
      rw [habsolute]
      by_cases hnone : names above = []
      · have hrooted : (above.isEmpty || isAbsolute above) = true := by
          by_cases hne : above = []
          · rw [hne]
            rfl
          · rw [isAbsolute_of_names_nil hne hnone, Bool.or_true]
        rw [hnone, hrooted, show ofNames true ([] ++ (last ++ [0] ++ more) :: names') =
          [] ++ slash :: Bytes.joinWith [slash] ((last ++ [0] ++ more) :: names') from rfl, cut,
          readable_of_cut (by simp [hzeroSlash, hunreadLast]), gist_slash,
          gist_slash, hnone, hrooted]
        rfl
      · obtain ⟨hne, hsame⟩ := isAbsolute_ofNames (above.isEmpty || isAbsolute above) hnone hproper
        rw [ofNames_append _ hnone, cut, readable_of_cut, gist_slash, gist_slash,
          names_ofNames _ hproper, hsame]
        · simp [hne]
        · have hfront : 0 ∉ ofNames (above.isEmpty || isAbsolute above) (names above) := by
            intro hmem
            rcases mem_ofNames hmem with heq | ⟨name, hname, hmem⟩
            · exact hzeroSlash heq
            · exact hunreadAbove ((mem_names hname).2.2 0 hmem)
          simp [hfront, hzeroSlash, hunreadLast]
  · have hzeroSlash : (0 : UInt8) ≠ slash := by decide
    obtain ⟨more, rest, hnames⟩ := names_of_begun (show read ++ [0] ≠ [] by simp)
      (by simp [hslash, hzeroSlash.symm]) unread
    refine ⟨[], read ++ [0] ++ more, rest, ?_, by simp, fun names' => ?_⟩
    · rw [List.nil_append, ← hnames]
      simp
    · have habsolute : isAbsolute (read ++ 0 :: unread) = false := by
        cases read with
        | nil => rfl
        | cons b read =>
            have hb : b ≠ slash := fun heq => hslash (heq ▸ List.mem_cons_self)
            simpa [isAbsolute] using hb
      rw [habsolute, show ofNames false ([] ++ (read ++ [0] ++ more) :: names') =
        read ++ 0 :: (more ++ names'.flatMap ([slash] ++ ·)) by simp [ofNames, Bytes.joinWith],
        readable_of_cut hread]

end Host
end WasmPackager
