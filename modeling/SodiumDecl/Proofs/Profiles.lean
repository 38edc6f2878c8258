import Mathlib.Data.List.Flatten
import SodiumDecl.Assembly
import SodiumDecl.Proofs.Rendering

/-!
# The two profiles

The standard module is the extended one without the names that only the extended build has
(`assemble_standard`), as a document and line by line.

A text is cut into lines at its line feeds, and names and types may hold some, so a declaration
can take several lines. Fewer declarations are fewer lines all the same
(`Document.Without.body`), and the title and the line that opens the module stay where they are
(`declarationLines_render`).
-/

namespace SodiumDecl

/-! ## Lines -/

/-- The lines of a text. -/
def textLines (s : String) : List (List Char) := s.toList.splitOn '\n'

/-- The lines of a module but for those that name it, which are the first and the fifth. -/
def declarationLines (s : String) : List (List Char) := ((textLines s).eraseIdx 4).eraseIdx 0

/-- When no line of the head is broken, the lines that do not name the module are the rest of the
head and those of the declarations. -/
theorem declarationLines_render {d : Document} (hm : OneLine d.module) (hv : OneLine d.version) :
    declarationLines d.render =
      ((d.head.eraseIdx 4).eraseIdx 0 ++ d.body ++ ["\x7d"]).flatMap textLines ++ [[]] := by
  have hhead := oneLine_head hm hv
  have hkept : ∀ l ∈ (d.head.eraseIdx 4).eraseIdx 0, OneLine l :=
    fun l hl => hhead l (List.eraseIdx_subset (List.eraseIdx_subset hl))
  have hrest : ((d.head.eraseIdx 4).eraseIdx 0 ++ d.body ++ ["\x7d"]).flatMap textLines =
      ((d.head.eraseIdx 4).eraseIdx 0).map String.toList ++
        (d.body ++ ["\x7d"]).flatMap textLines := by
    rw [List.append_assoc, List.flatMap_append]
    exact congrArg (· ++ _) (flatMap_splitOn hkept)
  have hlines : textLines d.render = d.head.map String.toList ++
      ((d.body ++ ["\x7d"]).flatMap textLines ++ [[]]) := by
    rw [textLines, Document.render, splitOn_join, Document.lines, List.append_assoc,
      List.flatMap_append, flatMap_splitOn hhead, List.append_assoc]
    rfl
  rw [declarationLines, hlines, hrest]
  simp [Document.head]

/-- Only two lines of the head name the module. -/
theorem eraseIdx_head (d e : Document) :
    (d.head.eraseIdx 4).eraseIdx 0 = (e.head.eraseIdx 4).eraseIdx 0 := rfl

/-! ## Leaving declarations out -/

/-- A document is another one without the constants and functions whose names pass a test. -/
structure Document.Without (d e : Document) (test : String → Bool) : Prop where
  aliases : d.aliases = e.aliases
  enumerations : d.enumerations = e.enumerations
  records : d.records = e.records
  constants : d.constants = e.constants.filter fun k => !test k.name
  functions : d.functions = e.functions.filter fun f => !test f.name

/-- Without some declarations a document has fewer lines, in the same order. -/
theorem Document.Without.body {d e : Document} {test : String → Bool} (h : d.Without e test) :
    d.body.Sublist e.body := by
  have hconstants : (d.constants.map ConstantDecl.line).Sublist
      (e.constants.map ConstantDecl.line) := by
    rw [h.constants]
    exact List.filter_sublist.map _
  have hfunctions : (d.functions.flatMap FunctionDecl.lines).Sublist
      (e.functions.flatMap FunctionDecl.lines) := by
    rw [h.functions]
    exact List.filter_sublist.flatMap _
  rw [Document.body, Document.body, h.aliases, h.enumerations, h.records]
  exact ((hconstants.append_left _).append (.refl _)).append hfunctions

/-! ## Assembling -/

/-- The extended build declares all that is in a corpus. -/
theorem includes_extended (c : Catalog) (name : String) : c.includes name .extended = true := by
  simp [Catalog.includes, Profile.isExtended]

theorem includes_standard (c : Catalog) (name : String) :
    c.includes name .standard = !c.isExtendedOnly name := by
  simp [Catalog.includes, Profile.isExtended]

theorem without_assemble (c : Catalog) (corpus : Corpus) (version : String) :
    (c.assemble corpus .standard version).Without (c.assemble corpus .extended version)
      c.isExtendedOnly where
  aliases := rfl
  enumerations := rfl
  records := rfl
  constants := by
    simp [Catalog.assemble, includes_extended, includes_standard, List.filter_map,
      Function.comp_def, Catalog.constantDecl]
  functions := by
    simp [Catalog.assemble, includes_extended, includes_standard, List.filter_map,
      Function.comp_def, Catalog.functionDecl]

theorem oneLine_moduleName (p : Profile) : OneLine p.moduleName := by
  cases p <;> decide

theorem declarationLines_assemble (c : Catalog) (corpus : Corpus) (p : Profile) {version : String}
    (h : OneLine version) : declarationLines (c.assemble corpus p version).render =
      (((c.assemble corpus p version).head.eraseIdx 4).eraseIdx 0 ++
        (c.assemble corpus p version).body ++ ["\x7d"]).flatMap textLines ++ [[]] :=
  declarationLines_render (oneLine_moduleName p) h

/-- The standard module is the extended one, which declares the whole corpus, without the names
that only the extended build has. Its lines are some of those of the extended module, in the same
order, but for the title and the line that opens the module. -/
theorem assemble_standard (c : Catalog) (corpus : Corpus) {version : String}
    (h : OneLine version) :
    ((c.assemble corpus .extended version).constants = corpus.constants.map Catalog.constantDecl ∧
      (c.assemble corpus .extended version).functions = corpus.functions.map c.functionDecl) ∧
      (c.assemble corpus .standard version).Without (c.assemble corpus .extended version)
        c.isExtendedOnly ∧
      (declarationLines (c.assemble corpus .standard version).render).Sublist
        (declarationLines (c.assemble corpus .extended version).render) := by
  have hwithout := without_assemble c corpus version
  refine ⟨by simp [Catalog.assemble, includes_extended], hwithout, ?_⟩
  rw [declarationLines_assemble c corpus .standard h,
    declarationLines_assemble c corpus .extended h,
    eraseIdx_head _ (c.assemble corpus .extended version)]
  refine (List.Sublist.flatMap ?_ textLines).append (.refl _)
  exact (hwithout.body.append_left _).append (.refl _)

/-- A catalog with two names that only the extended build has. -/
def twoNamesCatalog : Catalog where
  aliases := []
  enumerations := []
  shapes := []
  handles := []
  auxiliarySymbols := []
  ready := ⟨"ready", "Promise<void>"⟩
  extendedOnly := ["a", "a\nb"]

/-- A corpus in which the name of a constant breaks a line. -/
def brokenLineCorpus : Corpus where
  functions := [.helper "A" [] none, .helper "b" [] (some "string")]
  constants := [⟨"A\nB", "uint"⟩, ⟨"ready", "Promise<void>"⟩]

theorem assemble_standard_sample :
    OneLine "0.7.3" ∧
      (twoNamesCatalog.assemble brokenLineCorpus .standard "0.7.3").constants.map (·.name) =
        ["ready"] ∧
      (twoNamesCatalog.assemble brokenLineCorpus .standard "0.7.3").functions.map (·.name) =
        ["b"] ∧
      (declarationLines
          (twoNamesCatalog.assemble brokenLineCorpus .standard "0.7.3").render).Sublist
        (declarationLines
          (twoNamesCatalog.assemble brokenLineCorpus .extended "0.7.3").render) := by
  have h : OneLine "0.7.3" := by decide
  obtain ⟨-, hwithout, hlines⟩ := assemble_standard twoNamesCatalog brokenLineCorpus h
  refine ⟨h, ?_, ?_, hlines⟩
  · rw [hwithout.constants]
    decide +kernel
  · rw [hwithout.functions]
    decide +kernel

end SodiumDecl
