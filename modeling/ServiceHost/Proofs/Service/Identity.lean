import ServiceHost.Proofs.Service.Threaded
import ServiceHost.Proofs.Text.Splitting

/-! The ids of services with a run loop, and what tells two of them apart.

An id is put together from texts that may hold the very separators that stand between them, and
something is put behind it in turn. But a slash can only come from there, and the number of the
service, which stands last, has no dot in it; so it can be read back.
-/

set_option autoImplicit false

namespace ServiceHost

namespace Text

theorem toDigits_injective {first second : Nat}
    (same : Nat.toDigits 10 first = Nat.toDigits 10 second) : first = second := by
  have read := congrArg (Nat.ofDigitChars 10 · 0) same
  simpa only [Nat.ofDigitChars_ten_toDigits] using read

theorem notMem_toDigits {c : Char} (other : c.isDigit = false) (number : Nat) :
    c ∉ Nat.toDigits 10 number := by
  intro member
  cases other.symm.trans (Nat.isDigit_of_mem_toDigits (by decide) (by decide) member)

/-- A number behind the last separator can be read back, whatever stands before it. -/
theorem number_injective {separator : Char} (other : separator.isDigit = false)
    {first second : List Char} {number count : Nat}
    (same : first ++ separator :: Nat.toDigits 10 number =
      second ++ separator :: Nat.toDigits 10 count) : number = count := by
  -- Read from its end, the text begins with the digits.
  have backwards : (Nat.toDigits 10 number).reverse ++ separator :: first.reverse =
      (Nat.toDigits 10 count).reverse ++ separator :: second.reverse := by
    simpa using congrArg List.reverse same
  have absent : ∀ number, separator ∉ (Nat.toDigits 10 number).reverse := fun number member =>
    notMem_toDigits other number (List.mem_reverse.mp member)
  have digits := front_injective (absent number) (absent count) backwards
  exact toDigits_injective (List.reverse_injective digits)

end Text

namespace Threaded

variable {service after other : Threaded} {now number : Nat}

/-- The same name, version and stamp, and so the same id. -/
structure Twin (service other : Threaded) : Prop where
  typeName : other.typeName = service.typeName
  version : other.version = service.version
  stamp : other.stamp = service.stamp

theorem Twin.refl (service : Threaded) : service.Twin service := ⟨rfl, rfl, rfl⟩

theorem Twin.id_eq (twin : service.Twin other) : other.id = service.id := by
  rw [id, id, twin.typeName, twin.version, twin.stamp]

/-- Whatever a service is called for, it keeps its identity. -/
theorem Turn.twin {query : Query} {before phase : Phase}
    (turn : service.Turn now query before phase after) : service.Twin after := by
  cases turn <;> exact ⟨rfl, rfl, rfl⟩

theorem Stir.twin (stir : service.Stir after) : service.Twin after := by
  cases stir <;> exact ⟨rfl, rfl, rfl⟩

/-- A service without slashes in its name and version, under a number of its own. -/
structure Numbered (number : Nat) (service : Threaded) : Prop where
  typeName : '/' ∉ service.typeName.toList
  version : '/' ∉ service.version.toList
  stamped : ∃ clock : Nat, service.stamp = s!"{clock}.{number}"

namespace Numbered

theorem twin (numbered : service.Numbered number) (twin : service.Twin other) :
    other.Numbered number := by
  obtain ⟨typeName, version, stamped⟩ := numbered
  exact ⟨twin.typeName ▸ typeName, twin.version ▸ version, twin.stamp ▸ stamped⟩

theorem id_eq (numbered : service.Numbered number) : ∃ clock : Nat, service.id.toList =
    (service.typeName.toList ++ ':' :: (service.version.toList ++ ':' :: Nat.toDigits 10 clock)) ++
      '.' :: Nat.toDigits 10 number := by
  obtain ⟨clock, stamped⟩ := numbered.stamped
  refine ⟨clock, ?_⟩
  simp [id, stamped, toString]

theorem slash_notMem (numbered : service.Numbered number) : '/' ∉ service.id.toList := by
  obtain ⟨clock, id⟩ := numbered.id_eq
  have digits : ∀ number, '/' ∉ Nat.toDigits 10 number := Text.notMem_toDigits (by decide)
  simp [id, numbered.typeName, numbered.version, digits]

/-- Whatever is put behind their ids, two services are told apart by their numbers. -/
theorem eq_of_label {first second : Nat} (one : service.Numbered first)
    (two : other.Numbered second) {origin elsewhere : String}
    (same : s!"{service.id}/{origin}" = s!"{other.id}/{elsewhere}") : first = second := by
  have texts : service.id.toList ++ '/' :: origin.toList =
      other.id.toList ++ '/' :: elsewhere.toList := by
    simpa [toString] using congrArg String.toList same
  have ids := Text.front_injective one.slash_notMem two.slash_notMem texts
  obtain ⟨clock, id⟩ := one.id_eq
  obtain ⟨later, id'⟩ := two.id_eq
  rw [id, id'] at ids
  exact Text.number_injective (by decide) ids

end Numbered
end Threaded

end ServiceHost
