import Dmg.Cartridge
import Dmg.Proofs.Text

/-
  The title of a cartridge is a normal form of its field.

  The bytes of the field count up to the first NUL.  Those
  that show no character are shown as spaces, and the spaces
  at the end are dropped.  A title that is written back into
  the field is read as it is.

  Key definitions include:
    * `shownAs`
    * `IsPrintable`
    * `fieldOf`

  Main results:
    * `titleText_append_spaces`
    * `takeWhile_ne_zero_congr`
    * `titleText_fieldOf`
    * `title_normal_form`
    * `Cartridge.title_normal`
-/

namespace Dmg

/- The size of the title field of a header. -/
def titleSize : Nat := 16

/- The character that a byte of the field is shown as. -/
def shownAs
    (b : UInt8) : Char :=
  if 0x21 ≤ b.toNat ∧ b.toNat ≤ 0x7E then Char.ofNat b.toNat
  else ' '

/- The characters that can be printed, the space included. -/
def IsPrintable
    (c : Char) : Prop :=
  0x20 ≤ c.toNat ∧ c.toNat ≤ 0x7E

/- A title written into the field, and the rest filled up. -/
def fieldOf
    (title : List Char)
    (pad : UInt8) : List UInt8 :=
  title.map (fun c => c.toNat.toUInt8) ++
    List.replicate (titleSize - title.length) pad

------------------------------------------------------------
-- Characters
------------------------------------------------------------

/- The space is shown as itself, like what is printable. -/
theorem titleChar_eq_shownAs
    (b : UInt8) :
    titleChar b = shownAs b := by
  revert b
  exact forall_byte (by decide +kernel)

theorem isPrintable_shownAs
    (b : UInt8) :
    IsPrintable (shownAs b) := by
  unfold IsPrintable
  revert b
  exact forall_byte (by decide +kernel)

/- A printable character fits in a byte that is shown as it. -/
theorem shownAs_of_isPrintable
    {c : Char}
    (h : IsPrintable c) :
    c.toNat.toUInt8 ≠ 0 ∧ shownAs c.toNat.toUInt8 = c := by
  have hAll :
      ∀ n < 0x7F, 0x20 ≤ n →
        n.toUInt8 ≠ 0 ∧
          shownAs n.toUInt8 = Char.ofNat n := by
    decide +kernel
  have hByte := hAll c.toNat (Nat.lt_succ_of_le h.2) h.1
  rw [Char.ofNat_toNat] at hByte
  exact hByte

/- The space is the only white space among them. -/
theorem isBlank_of_isPrintable
    {c : Char}
    (h : IsPrintable c) :
    Blank.isBlank c = (c == ' ') := by
  have hAll :
      ∀ n < 0x7F, 0x20 ≤ n →
        Blank.isBlank (Char.ofNat n) = (Char.ofNat n == ' ') := by
    decide +kernel
  have hChar := hAll c.toNat (Nat.lt_succ_of_le h.2) h.1
  rw [Char.ofNat_toNat] at hChar
  exact hChar

------------------------------------------------------------
-- Titles
------------------------------------------------------------

/- The text that a field shows up to its first NUL. -/
def shownText
    (field : List UInt8) : List Char :=
  (field.takeWhile (· != 0)).map shownAs

theorem isPrintable_of_mem_shownText
    {field : List UInt8}
    {c : Char}
    (h : c ∈ shownText field) :
    IsPrintable c := by
  obtain ⟨b, -, rfl⟩ := List.mem_map.mp h
  exact isPrintable_shownAs b

theorem titleText_eq
    (field : List UInt8) :
    titleText field =
      (shownText field).rdropWhile (· == ' ') := by
  have hChars : titleChar = shownAs := by
    funext b
    exact titleChar_eq_shownAs b
  unfold titleText shownText
  rw [hChars]
  rfl

/- What is dropped are spaces. -/
theorem titleText_append_spaces
    (field : List UInt8) :
    ∃ n,
      shownText field =
        titleText field ++ List.replicate n ' ' := by
  let spaces := (shownText field).rtakeWhile (· == ' ')
  refine ⟨spaces.length, ?_⟩
  have hSpaces : spaces = List.replicate spaces.length ' ' := by
    rw [List.eq_replicate_iff]
    refine ⟨rfl, ?_⟩
    intro c hc
    exact eq_of_beq
      (List.mem_rtakeWhile_imp (p := (· == ' ')) hc)
  rw [titleText_eq, ← hSpaces,
    List.rdropWhile_append_rtakeWhile]

theorem isPrintable_of_mem_titleText
    {field : List UInt8}
    {c : Char}
    (h : c ∈ titleText field) :
    IsPrintable c := by
  obtain ⟨n, hShown⟩ := titleText_append_spaces field
  have hMem : c ∈ shownText field := by
    rw [hShown]
    exact List.mem_append_left _ h
  exact isPrintable_of_mem_shownText hMem

/- A title does not end with a space. -/
theorem getLast?_titleText
    (field : List UInt8) :
    (titleText field).getLast? ≠ some ' ' := by
  intro h
  rw [titleText_eq] at h
  have hNot := not_of_mem_getLast?_rdropWhile h
  cases hNot

/- No white space of any kind is left at the end. -/
theorem titleText_eq_rdropWhile_isBlank
    (field : List UInt8) :
    titleText field =
      (shownText field).rdropWhile Blank.isBlank := by
  obtain ⟨n, hShown⟩ := titleText_append_spaces field
  have hSpaces :
      ∀ c ∈ List.replicate n ' ', Blank.isBlank c = true := by
    intro c hc
    rw [List.eq_of_mem_replicate hc]
    rfl
  have hEnd :
      ∀ c ∈ (titleText field).getLast?,
        Blank.isBlank c = false := by
    intro c hc
    rw [isBlank_of_isPrintable
      (isPrintable_of_mem_titleText
        (List.mem_of_getLast? hc)), beq_eq_false_iff_ne]
    rintro rfl
    exact getLast?_titleText field hc
  rw [hShown, rdropWhile_append_of_forall hSpaces,
    rdropWhile_of_getLast? hEnd]

theorem length_titleText_le
    (field : List UInt8) :
    (titleText field).length ≤ field.length := by
  obtain ⟨n, hShown⟩ := titleText_append_spaces field
  have hLength := congrArg List.length hShown
  have hTaken :=
    (List.takeWhile_prefix (p := (· != 0)) (l := field)).length_le
  rw [shownText, List.length_map, List.length_append]
    at hLength
  omega

------------------------------------------------------------
-- Fields
------------------------------------------------------------

/- The bytes before the first NUL, by its place. -/
theorem takeWhile_ne_zero
    (field : List UInt8) :
    field.takeWhile (· != 0) =
      field.take (field.findIdx (· == 0)) := by
  rw [List.takeWhile_eq_take_findIdx_not]
  congr 2
  funext b
  exact Bool.not_not _

/- They do not depend on what follows the NUL. -/
theorem takeWhile_ne_zero_congr
    {field other : List UInt8}
    (h : ∀ i ≤ field.findIdx (· == 0), other[i]? = field[i]?) :
    other.takeWhile (· != 0) = field.takeWhile (· != 0) := by
  induction field generalizing other with
  | nil =>
      have hFirst := h 0 (Nat.zero_le _)
      cases other with
      | nil => rfl
      | cons b other => cases hFirst
  | cons b field ih =>
      have hFirst := h 0 (Nat.zero_le _)
      cases other with
      | nil => cases hFirst
      | cons b' other =>
          cases hFirst
          by_cases hNul : b = 0
          · subst hNul
            rfl
          · have hIndex :
                (b :: field).findIdx (· == 0) =
                  field.findIdx (· == 0) + 1 := by
              rw [List.findIdx_cons,
                beq_eq_false_iff_ne.mpr hNul]
              rfl
            have hRest :
                ∀ i ≤ field.findIdx (· == 0),
                  other[i]? = field[i]? := by
              intro i hi
              exact h (i + 1) (by omega)
            have hKept : (b != 0) = true :=
              bne_iff_ne.mpr hNul
            rw [List.takeWhile_cons_of_pos (p := (· != 0)) hKept,
              List.takeWhile_cons_of_pos (p := (· != 0)) hKept,
              ih hRest]

theorem length_fieldOf
    {title : List Char}
    (h : title.length ≤ titleSize)
    (pad : UInt8) :
    (fieldOf title pad).length = titleSize := by
  unfold fieldOf
  rw [List.length_append, List.length_map,
    List.length_replicate]
  omega

/-
  The bytes of a title are shown as the title, whether it is
  filled up with NULs or with bytes shown as spaces.
-/
theorem shownText_fieldOf
    {title : List Char}
    (hPrintable : ∀ c ∈ title, IsPrintable c)
    {pad : UInt8}
    (hPad : shownAs pad = ' ') :
    ∃ n,
      shownText (fieldOf title pad) =
        title ++ List.replicate n ' ' := by
  have hBytes :
      ∀ b ∈ title.map fun c => c.toNat.toUInt8,
        (b != 0) = true := by
    intro b hb
    obtain ⟨c, hc, rfl⟩ := List.mem_map.mp hb
    exact bne_iff_ne.mpr
      (shownAs_of_isPrintable (hPrintable c hc)).1
  have hShown :
      (title.map fun c => c.toNat.toUInt8).map shownAs =
        title := by
    rw [List.map_map]
    calc title.map (shownAs ∘ fun c => c.toNat.toUInt8)
        = title.map id := by
          apply List.map_congr_left
          intro c hc
          exact (shownAs_of_isPrintable (hPrintable c hc)).2
      _ = title := List.map_id title
  unfold shownText fieldOf
  rw [List.takeWhile_append_of_pos hBytes, List.map_append,
    hShown, List.takeWhile_replicate]
  split
  · exact ⟨_, by rw [List.map_replicate, hPad]⟩
  · exact ⟨0, rfl⟩

theorem shownAs_of_pad
    {pad : UInt8}
    (h : pad = 0x00 ∨ pad = 0x20) :
    shownAs pad = ' ' := by
  rcases h with rfl | rfl <;> rfl

/- A title is read back as it was written. -/
theorem titleText_fieldOf
    {title : List Char}
    (hPrintable : ∀ c ∈ title, IsPrintable c)
    (hEnd : title.getLast? ≠ some ' ')
    {pad : UInt8}
    (hPad : shownAs pad = ' ') :
    titleText (fieldOf title pad) = title := by
  obtain ⟨n, hShown⟩ := shownText_fieldOf hPrintable hPad
  have hSpaces :
      ∀ c ∈ List.replicate n ' ', (c == ' ') = true := by
    intro c hc
    rw [List.eq_of_mem_replicate hc]
    rfl
  have hLast : ∀ c ∈ title.getLast?, (c == ' ') = false := by
    intro c hc
    rw [beq_eq_false_iff_ne]
    rintro rfl
    exact hEnd hc
  rw [titleText_eq, hShown,
    rdropWhile_append_of_forall hSpaces,
    rdropWhile_of_getLast? hLast]

------------------------------------------------------------
-- Normal Forms
------------------------------------------------------------

/- The field of a cartridge has its size. -/
theorem Cartridge.length_titleField
    (c : Cartridge) :
    (bytesFrom c.rom.toArray 0x134 0x144).length =
      titleSize := by
  have hSize : c.rom.toArray.size = 0x8000 :=
    c.rom.size_toArray
  unfold bytesFrom
  rw [Array.length_toList, Array.size_extract, hSize]
  rfl

/-
  A title is what its field shows before the first NUL, with
  all spaces at the end dropped and no others, so that it has
  at most 16 characters, all of them printable, and ends with
  no white space of any kind.  What follows the NUL does not
  matter.  Written back into the field, and filled up with
  NULs or with spaces, it is read as it is.
-/
theorem title_normal_form
    (field : List UInt8)
    (hField : field.length = titleSize) :
    let title := titleText field
    let cut := field.findIdx (· == 0)
    title.length ≤ 16 ∧
      (∀ c ∈ title, 0x20 ≤ c.toNat ∧ c.toNat ≤ 0x7E) ∧
      title.getLast? ≠ some ' ' ∧
      (∃ n,
        (field.take cut).map shownAs =
          title ++ List.replicate n ' ') ∧
      title =
        ((field.take cut).map shownAs).rdropWhile
          Blank.isBlank ∧
      (∀ other : List UInt8,
        (∀ i ≤ cut, other[i]? = field[i]?) →
          titleText other = title) ∧
      (∀ pad : UInt8, pad = 0x00 ∨ pad = 0x20 →
        (fieldOf title pad).length = titleSize ∧
          titleText (fieldOf title pad) = title) ∧
      ∀ c : Cartridge,
        bytesFrom c.rom.toArray 0x134 0x144 = field →
          c.title = String.ofList title := by
  intro title cut
  have hLength : title.length ≤ titleSize :=
    hField ▸ length_titleText_le field
  have hPrintable : ∀ c ∈ title, IsPrintable c :=
    fun c hc => isPrintable_of_mem_titleText hc
  refine ⟨hLength, hPrintable, getLast?_titleText field,
    ?_, ?_, ?_, ?_, ?_⟩
  · rw [← takeWhile_ne_zero]
    exact titleText_append_spaces field
  · rw [← takeWhile_ne_zero]
    exact titleText_eq_rdropWhile_isBlank field
  · intro other hSame
    unfold title titleText
    rw [takeWhile_ne_zero_congr hSame]
  · intro pad hPad
    exact ⟨length_fieldOf hLength pad,
      titleText_fieldOf hPrintable
        (getLast?_titleText field) (shownAs_of_pad hPad)⟩
  · rintro c rfl
    rfl

/-
  A field with a space first, two bytes that show nothing, and
  more bytes after the NUL.
-/
def mixedField : List UInt8 :=
  [0x20, 0x41, 0x01, 0x42, 0x80, 0x20, 0x00, 0x43,
   0x44, 0x00, 0x45, 0x20, 0x46, 0xFF, 0x47, 0x48]

theorem title_normal_form_mixedField :
    mixedField.length = titleSize ∧
      titleText mixedField = [' ', 'A', ' ', 'B'] ∧
      titleText (fieldOf [' ', 'A', ' ', 'B'] 0x20) =
        [' ', 'A', ' ', 'B'] := by
  have hLength : mixedField.length = titleSize := rfl
  have hTitle : titleText mixedField = [' ', 'A', ' ', 'B'] := by
    decide +kernel
  obtain ⟨-, -, -, -, -, -, hBack, -⟩ :=
    title_normal_form mixedField hLength
  rw [hTitle] at hBack
  exact ⟨hLength, hTitle, (hBack 0x20 (.inr rfl)).2⟩

/-
  So it is for every cartridge, and one whose field holds the
  title of another, filled up, has the same title.
-/
theorem Cartridge.title_normal
    (c : Cartridge) :
    let title := c.title.toList
    title.length ≤ titleSize ∧
      (∀ x ∈ title, IsPrintable x) ∧
      title.getLast? ≠ some ' ' ∧
      ∀ (d : Cartridge) (pad : UInt8),
        pad = 0x00 ∨ pad = 0x20 →
          bytesFrom d.rom.toArray 0x134 0x144 =
              fieldOf title pad →
            d.title = c.title := by
  let field := bytesFrom c.rom.toArray 0x134 0x144
  have hTitle : c.title.toList = titleText field :=
    String.toList_ofList
  have hLength := length_titleText_le field
  rw [c.length_titleField] at hLength
  have hPrintable : ∀ x ∈ titleText field, IsPrintable x :=
    fun _ => isPrintable_of_mem_titleText
  intro title
  unfold title
  rw [hTitle]
  refine ⟨hLength, hPrintable, getLast?_titleText field, ?_⟩
  intro d pad hPad hField
  have hBack := titleText_fieldOf hPrintable
    (getLast?_titleText field) (shownAs_of_pad hPad)
  rw [Cartridge.title, hField, hBack]
  rfl

end Dmg
