import SmartLock.Domain

/-!
# Default data

The constants of `DefaultData.cs` and the two locks that `DbDataSeeder` links to its roles, as the
grain loads them.
-/

namespace SmartLock.DefaultData

def managerId : String := "63d396e7-13b1-45d1-a388-25894721205a"
def managerEmail : String := "manager@company.com"

def employeeId : String := "ae982851-743c-4b9f-9b67-108579cdece6"
def employeeEmail : String := "employee@company.com"

def managerRoleName : String := "Manager"
def managerRoleId : String := "5f29de52-17cc-44bd-9aa9-aea42850f9bc"

def employeeRoleName : String := "Employee"
def employeeRoleId : String := "75467de2-1b6b-4f97-9c8e-52d3cc0c4c27"

def entranceLockId : String := "1d0579fa-5dc4-4e6a-aea0-503b417b33ca"
def storageLockId : String := "618582f1-06a5-4876-a6fd-20397cb77fd8"

def managerRole : RoleEntity := ⟨managerRoleId, some managerRoleName, some "MANAGER"⟩
def employeeRole : RoleEntity := ⟨employeeRoleId, some employeeRoleName, some "EMPLOYEE"⟩

def entranceLock : LockEntity := ⟨entranceLockId, "Entrance Lock", [managerRole, employeeRole]⟩
def storageLock : LockEntity := ⟨storageLockId, "Storage Room", [managerRole]⟩

end SmartLock.DefaultData
