import WideColumn.Proofs.Store.Client
import WideColumn.Proofs.TableRequest

/-!
# Tables that were made

A table comes from a request that was carried out, for whatever schema and on
whatever store. All its columns lie in its families.
-/

namespace WideColumn.Table

/-- The table was given by a request that was carried out. -/
def Made (t : Table) : Prop :=
  ∃ (r r' : TableRequest) (s s' : LiveSchema) (c c' : Client),
    r.execute s c = (.ok (t, s', r'), c')

theorem Made.closed {t : Table} (h : t.Made) : t.Closed := by
  obtain ⟨r, r', s, s', c, c', hexecute⟩ := h
  obtain ⟨name, fs, -, -, hvalid, rfl, -⟩ := TableRequest.execute_eq_ok hexecute
  exact TableRequest.closed_table hvalid s.name name

end WideColumn.Table
