/-
**What the browse tool makes of a name.**

The tool evens out the blanks of the name that it is asked for, and looks at nothing else of it. So
names with the same words are answered alike, and a name of blanks is answered like none at all.

* `normalizeName_congr`: the words of a name tell what it is evened out to;
* `browse_congr`: the tool looks at nothing but that;
* `browse_by_words`: all of it for any name.
-/

import Handbook.Proofs.Text.Words
import Handbook.Proofs.Tool.Browse

namespace Handbook.Tool

open Text

variable {text other : Text}

/-! ### Names with the same words -/

/-- Names with the same words are evened out to one. -/
theorem normalizeName_congr (same : words other = words text) :
    normalizeName (some other) = normalizeName (some text) :=
  congrArg [' '].intercalate same

/-- **Evening out a name again changes nothing.** -/
theorem normalizeName_normalizeName (text : Text) :
    normalizeName (some (normalizeName (some text))) = normalizeName (some text) :=
  normalizeName_congr (words_evenBlanks text)

/-- A name of blanks is evened out to what there is without a name. -/
theorem normalizeName_of_isBlankText (blank : isBlankText text = true) :
    normalizeName (some text) = normalizeName none :=
  congrArg [' '].intercalate (words_of_isBlankText blank)

variable {one two : Option Text}

/-- **The tool looks at nothing of a name but what it is evened out to**, whatever becomes of the
files: the answer, the problem and the cache that is left are the same. -/
theorem browse_congr (same : normalizeName one = normalizeName two) (library : Library) :
    browse library one = browse library two := by
  simp only [browse, same]

/-- The answer is the same wherever the files are loaded from, as long as they hold the same. -/
theorem browse_answer_congr (same : normalizeName one = normalizeName two) {blobs : Blobs}
    {library library' : Library} {cache cache' : Cache} (loaded : blobs.LoadedFrom library cache)
    (loaded' : blobs.LoadedFrom library' cache') :
    (browse library one cache).1 = (browse library' two cache').1 := by
  rw [browse_apply loaded, browse_apply loaded', same]

/-! ### All names -/

/-- **What the browse tool makes of a name.** Evened out, a name keeps its words, each of its blanks
is a single space between two of them, and evening it out again changes nothing. The tool does the
same for all names with the same words, and answers them alike whenever the files hold the same, be
they kept or read. Without a name it does what it does for any name of blanks. -/
theorem browse_by_words (text : Text) :
    words (normalizeName (some text)) = words text ∧ SingleSpaced (normalizeName (some text)) ∧
      normalizeName (some (normalizeName (some text))) = normalizeName (some text) ∧
      (∀ even, words even = words text → SingleSpaced even → even = normalizeName (some text)) ∧
      (∀ other, words other = words text → ∀ library,
        browse library (some other) = browse library (some text)) ∧
      (∀ other, words other = words text → ∀ {blobs : Blobs} {library library' : Library}
        {cache cache' : Cache}, blobs.LoadedFrom library cache → blobs.LoadedFrom library' cache' →
          (browse library (some other) cache).1 = (browse library' (some text) cache').1) ∧
      (isBlankText text = true → ∀ library,
        browse library none = browse library (some text)) :=
  ⟨words_evenBlanks text, singleSpaced_evenBlanks text, normalizeName_normalizeName text,
    fun _ same single => eq_evenBlanks_iff.mpr ⟨same, single⟩,
    fun _ same => browse_congr (normalizeName_congr same),
    fun _ same {_ _ _ _ _} => browse_answer_congr (normalizeName_congr same),
    fun blank => browse_congr (normalizeName_of_isBlankText blank).symm⟩

/-- An alias among blanks finds what it finds without them, also once a file is kept; and a wide
space asks for what the tool does without a name. -/
theorem browse_by_words_counted :
    let blobs : Blobs := ⟨emptyList, countedList, helpless⟩
    let kept := ((libraryOf blobs).loadBytes FileName.scraping .empty).2
    words "len".toList = words "\u2003len\n".toList ∧ blobs.LoadedFrom (libraryOf blobs) kept ∧
      normalizeName (some "\u2003len\n".toList) = "len".toList ∧
      (browse (libraryOf blobs) (some "len".toList) .empty).1 =
        (browse (libraryOf blobs) (some "\u2003len\n".toList) kept).1 ∧
      isBlankText "\u2003".toList = true ∧
      browse (libraryOf blobs) none = browse (libraryOf blobs) (some "\u2003".toList) := by
  intro blobs kept
  have same : words "len".toList = words "\u2003len\n".toList := by decide
  have single : SingleSpaced "len".toList := singleSpaced_evenBlanks "len".toList
  have first : blobs.LoadedFrom (libraryOf blobs) .empty := ⟨_, _, _, rfl, rfl, rfl⟩
  have again : blobs.LoadedFrom (libraryOf blobs) kept := ⟨_, _, _, rfl, rfl, rfl⟩
  have blank : isBlankText "\u2003".toList = true := by decide
  obtain ⟨-, -, -, unique, -, alike, -⟩ := browse_by_words "\u2003len\n".toList
  obtain ⟨-, -, -, -, -, -, unnamed⟩ := browse_by_words "\u2003".toList
  exact ⟨same, again, (unique _ same single).symm, alike _ same first again, blank,
    unnamed blank (libraryOf blobs)⟩

end Handbook.Tool
