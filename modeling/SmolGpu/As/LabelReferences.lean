import SmolGpu.As.Lexemes
import SmolGpu.As.Lines

/-!
# References to labels

A declaration of a label is recognised by its colon, in front of registers; a reference is what
remains when a word is no mnemonic, no label, and no register. So the mnemonics and the words that
begin like a register can be declared and not referenced (`label_referable_iff`).
-/

namespace SmolGpu.As

open Sim

/-- The word with a colon is lexed to the label of that name. -/
def Declarable (word : List Char) : Prop :=
  ∃ col, collectTokens (word ++ [':']) = some ([⟨.label word, col⟩], [])

/-- The word is lexed to the reference of that name, and a `jalr` to it parses with any register as
its destination. -/
structure Referable (word : List Char) : Prop where
  /-- The word is lexed to the reference. -/
  labelRef : ∃ col, collectTokens word = some ([⟨.labelRef word, col⟩], [])
  /-- A `jalr` to the word parses. -/
  jalr : ∀ rd reg, RegisterName rd reg → ∃ tokens,
    collectTokens ("jalr ".toList ++ rd ++ ", ".toList ++ word) = some (tokens, []) ∧
      parseLine tokens =
        .ok (.instruction ⟨none, ⟨.JALR, false⟩, .jalr ⟨reg, .zero, .labelRef word⟩⟩)

section Words

variable {word rd text : List Char} {type : TokenType} {types : List TokenType} {reg : Register}

/-- A label that can be declared can be written. -/
theorem Declarable.readable (h : Declarable word) : Readable (.label word) := by
  obtain ⟨col, hcollect⟩ := h
  exact readable_of_collectTokens hcollect ⟨.label word, col⟩ List.mem_cons_self

/-- No label has a minus sign. -/
theorem minus_notMem_label (h : ∀ c ∈ word, isLabelChar c = true) : '-' ∉ word := fun hmem =>
  absurd (h '-' hmem) (by decide)

/-- A word of label characters that is neither a mnemonic nor like a register is a label
reference. -/
theorem keywordToken_labelRef (hlabel : ∀ c ∈ word, isLabelChar c = true)
    (hmnemonic : strToMnemonic word = none) (hstarts : ¬StartsLikeRegister word) (col : IData) :
    Lexer.keywordToken word col = .ok ⟨.labelRef word, col⟩ := by
  have hread : ∀ reg, strToReg word ≠ .ok reg := fun reg h =>
    hstarts ((startsLikeRegister_iff (minus_notMem_label hlabel)).mpr ⟨reg, h⟩)
  rw [Lexer.keywordToken_plain hmnemonic (label_getLast?_ne hlabel),
    Lexer.registerOrLabelRef_labelRef hread hlabel]

/-- A word that spells one token is lexed to it. -/
theorem collectTokens_single (h : Spells word [type]) :
    ∃ col, collectTokens word = some ([⟨type, col⟩], []) := by
  obtain ⟨tokens, hcollect, htypes⟩ := collectTokens_of_spells h
  obtain ⟨col, rest, rfl, hrest⟩ := Parser.types_cons.mp htypes
  rw [List.map_eq_nil_iff] at hrest
  subst hrest
  exact ⟨col, hcollect⟩

/-- A word that is lexed to a label reference spells no other token. -/
theorem type_of_labelRef (h : Spells word [type])
    (href : ∃ col, collectTokens word = some ([⟨.labelRef word, col⟩], [])) :
    type = .labelRef word := by
  obtain ⟨col, hcollect⟩ := href
  obtain ⟨col', hcollect'⟩ := collectTokens_single h
  rw [hcollect] at hcollect'
  simp at hcollect'
  exact hcollect'.1.symm

/-- The text of a `jalr` to a label. -/
theorem spells_jalr (hrd : RegisterName rd reg) (hword : Spells word [.labelRef word]) :
    Spells ("jalr ".toList ++ rd ++ ", ".toList ++ word)
      [.mnemonic ⟨.JALR, false⟩, .register reg, .comma, .labelRef word] := by
  obtain ⟨digits, hat, hle, hnumber⟩ := hrd
  have hoperand : Spells (',' :: ' ' :: word) [.comma, .labelRef word] :=
    .punctuation .comma (.blank (by decide) hword)
  have hregister := spells_register hat (by omega) hnumber (by simp +decide) hoperand
  have hline := spells_mnemonic ⟨.JALR, false⟩ (by simp +decide)
    (.blank (c := ' ') (by decide) hregister)
  have htext : "jalr ".toList ++ rd ++ ", ".toList ++ word =
      (Mnemonic.toStr ⟨.JALR, false⟩).toList ++ ' ' :: (rd ++ ',' :: ' ' :: word) := by
    have hjalr : "jalr ".toList = (Mnemonic.toStr ⟨.JALR, false⟩).toList ++ [' '] := by decide
    have hcomma : ", ".toList = [',', ' '] := by decide
    rw [hjalr, hcomma]
    simp
  rw [htext]
  exact hline

end Words

/-- A label that can be declared can be referenced if and only if it is no mnemonic and does not
begin like a register. -/
theorem label_referable_iff (word : List Char) (h : Declarable word) :
    Referable word ↔ strToMnemonic word = none ∧ ¬StartsLikeRegister word := by
  have hreadable := h.readable
  have hminus := minus_notMem_label hreadable.2
  constructor
  · intro href
    -- The word of a mnemonic or of a register is lexed to the mnemonic or the register, and so not
    -- to a reference.
    have hmnemonic : strToMnemonic word = none := by
      cases hword : strToMnemonic word with
      | none => rfl
      | some opcode =>
        have hspells := spells_label hreadable.1 hreadable.2 fun col =>
          Lexer.keywordToken_mnemonic hword
        cases type_of_labelRef hspells href.labelRef
    refine ⟨hmnemonic, fun hstarts => ?_⟩
    obtain ⟨reg, hreg⟩ := (startsLikeRegister_iff hminus).mp hstarts
    have hspells : Spells word [.register reg] := by
      refine spells_label hreadable.1 hreadable.2 fun col => ?_
      rw [Lexer.keywordToken_plain hmnemonic (label_getLast?_ne hreadable.2)]
      exact Lexer.registerOrLabelRef_register.mpr ⟨hreg, rfl⟩
    cases type_of_labelRef hspells href.labelRef
  · rintro ⟨hmnemonic, hstarts⟩
    -- Any other word is lexed to the reference, also behind a `jalr`, where the parser takes it.
    have hspells := spells_label hreadable.1 hreadable.2
      (keywordToken_labelRef hreadable.2 hmnemonic hstarts)
    refine ⟨collectTokens_single hspells, fun rd reg hrd => ?_⟩
    obtain ⟨tokens, hcollect, htypes⟩ := collectTokens_of_spells (spells_jalr hrd hspells)
    have hform : LineForm (tokens.map Token.token_type)
        (.instruction ⟨none, ⟨.JALR, false⟩, .jalr ⟨reg, .zero, .labelRef word⟩⟩) := by
      rw [htypes]
      exact .instruction _ _ _ (.jalrLabel reg word rfl)
    exact ⟨tokens, hcollect, parseLine_of_lineForm hform⟩

/-- The label `loop` can be declared. -/
theorem label_referable_iff_loop :
    Referable "loop".toList ↔
      strToMnemonic "loop".toList = none ∧ ¬StartsLikeRegister "loop".toList :=
  label_referable_iff "loop".toList ⟨1, by decide +kernel⟩

/-- A label with the name of an instruction can be declared, and a reference to it is a mnemonic. -/
theorem mnemonic_not_referable : ¬∀ word, Declarable word → Referable word := by
  intro h
  obtain ⟨col, hcollect⟩ := (h "add".toList ⟨1, by decide +kernel⟩).labelRef
  have hadd : collectTokens "add".toList = some ([⟨.mnemonic ⟨.ADD, false⟩, 1⟩], []) := by
    decide +kernel
  rw [hadd] at hcollect
  simp at hcollect

end SmolGpu.As
