import LoginServer.Network.ClientStream
import LoginServer.Network.Malformed

/-!
# Documents that can be sent

The messages of the handlers are made of texts, machine integers, arrays and objects with
literal keys. If the texts are UTF-8, `generateResponseMessage` does not throw and what it
gives is a response that clients read (`Json.Sendable.isResponse`).
-/

namespace LoginServer

open Nlohmann protocol

/-- The values of `int64_t`. -/
def IsInt64 (n : Int) : Prop := -2 ^ 63 ≤ n ∧ n < 2 ^ 63

instance (n : Int) : Decidable (IsInt64 n) := inferInstanceAs (Decidable (_ ∧ _))

theorem Nlohmann.Representable.mono {P Q : UInt64 → Prop} (hPQ : ∀ bits, P bits → Q bits)
    {j : Json} (h : Representable P j) : Representable Q j := by
  induction h with
  | null => exact .null
  | boolean b => exact .boolean b
  | number h => exact .number h
  | number_float h => exact .number_float (hPQ _ h)
  | string s => exact .string s
  | array _ ih => exact .array ih
  | object hkeys _ ih => exact .object hkeys ih

/-- A document of UTF-8 texts and 64-bit integers, without numbers of another kind. -/
structure Json.Sendable (j : Json) : Prop where
  isUtf8 : j.IsUtf8
  representable : Representable (fun _ => False) j

namespace Json.Sendable

variable {j value : Json}

theorem boolean (b : Bool) : (Json.boolean b).Sendable := ⟨.boolean b, .boolean b⟩

theorem number {n : Int} (h : IsInt64 n) : (Json.number n).Sendable := by
  refine ⟨.number n, .number ⟨h.1, ?_⟩⟩
  have := h.2
  omega

theorem string {s : Bytes} (h : IsText s) : (Json.string s).Sendable := ⟨.string h, .string s⟩

theorem array {items : List Json} (h : ∀ j ∈ items, j.Sendable) : (Json.array items).Sendable :=
  ⟨.array fun j hj => (h j hj).isUtf8, .array fun j hj => (h j hj).representable⟩

theorem empty_object : (Json.object []).Sendable :=
  ⟨.object (by simp) (by simp), .object (by simp) (by simp)⟩

theorem set (hj : j.Sendable) (key : String) (hvalue : value.Sendable) :
    (j.set (str key) value).Sendable :=
  ⟨hj.isUtf8.set key hvalue.isUtf8, hj.representable.set _ hvalue.representable⟩

/-- An object whose keys are distinct literals. -/
theorem object (members : List (String × Json)) (hkeys : (members.map Prod.fst).Nodup)
    (h : ∀ m ∈ members, m.2.Sendable) :
    (Json.object (members.map fun m => (str m.1, m.2))).Sendable := by
  constructor
  · refine .object ?_ ?_
    · simp only [List.forall_mem_map]
      exact fun m _ => isText_str m.1
    · simp only [List.forall_mem_map]
      exact fun m hm => (h m hm).isUtf8
  · refine .object ?_ ?_
    · have hmap : (members.map fun m => (str m.1, m.2)).map Prod.fst =
          (members.map Prod.fst).map str := by
        simp
      rw [hmap]
      exact hkeys.map str_injective
    · simp only [List.forall_mem_map]
      exact fun m hm => (h m hm).representable

end Json.Sendable

/-- What has been built so far can be sent. -/
structure ResponseBuilder.Sendable (b : ResponseBuilder) : Prop where
  header : (Json.object b.header).Sendable
  body : (Json.object b.body).Sendable

namespace ResponseBuilder.Sendable

variable {b : ResponseBuilder} {value : Json}

theorem empty : ResponseBuilder.Sendable {} := ⟨.empty_object, .empty_object⟩

theorem setHeader (h : b.Sendable) (key : String) (hvalue : value.Sendable) :
    (b.setHeader key value).Sendable :=
  ⟨h.header.set key hvalue, h.body⟩

theorem setBody (h : b.Sendable) (key : String) (hvalue : value.Sendable) :
    (b.setBody key value).Sendable :=
  ⟨h.header, h.body.set key hvalue⟩

theorem build (h : b.Sendable) : b.build.Sendable :=
  Json.Sendable.object [("header", .object b.header), ("body", .object b.body)]
    (by simp) (by simpa using ⟨h.header, h.body⟩)

end ResponseBuilder.Sendable

end LoginServer
