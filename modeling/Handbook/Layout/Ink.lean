/-
**Inks.**

A document is laid out for the terminal in an ink, which says how a text in a style, and running
prose, are written. The colored ink writes escape sequences; the plain ink leaves every text as it
is, and so gives the bare layout.
-/

import Handbook.Colorize.Prose

namespace Handbook

/-- How styled texts and running prose are written. -/
structure Ink where
  style : Terminal.Style → Text → Text
  prose : Text → Text

/-- The ink of color terminals. -/
def Ink.colored : Ink := ⟨Terminal.styled, Colorize.prose⟩

/-- The ink that adds nothing. -/
def Ink.plain : Ink := ⟨fun _ text => text, fun text => text⟩

/-- A text in a color. -/
def Ink.color (ink : Ink) (shade : Terminal.Color) (text : Text) : Text :=
  ink.style (.color shade) text

/-- A heading. -/
def Ink.heading (ink : Ink) (text : Text) : Text := ink.color .yellow text

/-! ### The two inks -/

@[simp] theorem Ink.colored_prose (text : Text) : Ink.colored.prose text = Colorize.prose text := by
  rw [Ink.colored]

@[simp] theorem Ink.colored_color (shade : Terminal.Color) (text : Text) :
    Ink.colored.color shade text = Terminal.colored shade text := rfl

@[simp] theorem Ink.colored_heading (text : Text) :
    Ink.colored.heading text = Terminal.colored .yellow text := rfl

@[simp] theorem Ink.plain_prose (text : Text) : Ink.plain.prose text = text := rfl

@[simp] theorem Ink.plain_color (shade : Terminal.Color) (text : Text) :
    Ink.plain.color shade text = text := rfl

@[simp] theorem Ink.plain_heading (text : Text) : Ink.plain.heading text = text := rfl

end Handbook
