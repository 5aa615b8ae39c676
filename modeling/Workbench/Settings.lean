/-!
# Settings

The fixed texts and limits of the workbench.
-/

namespace Workbench.Settings

/-- The name in the toolbar. -/
def brand : String := "playpen"

/-- The tag of every console message that a previewed page posts. -/
def consoleTag : String := "playpen:console"

/-- What stands for a console argument that has no JSON form. -/
def unserializable : String := "[Unserializable]"

/-- How many console lines are kept. -/
def consoleLimit : Nat := 1000

/-- The title of a composed page. -/
def pageTitle : String := "Preview"

/-- What the preview frame may do. It has no access to the page around it. -/
def framePermissions : String := "allow-scripts allow-modals allow-forms allow-popups"

/-- How long a page in a new tab may use its address, in milliseconds. -/
def tabAddressLifetime : Nat := 60000

end Workbench.Settings
