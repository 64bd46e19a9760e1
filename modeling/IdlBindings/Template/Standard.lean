import IdlBindings.Template.Basic

/-!
The templates that are used where no others are given, line by line.
-/

namespace IdlBindings.Template

/-- The frame of a generated file. -/
def baseLines : List String :=
  ["// Bindings for \x7b\x7bclass_name\x7d\x7d, generated from \x7b\x7bsource\x7d\x7d. Do not edit.\n",
    "\n",
    "#[allow(unused_imports)]\n",
    "use std::ffi::\x7bc_char, c_double, c_void, CString\x7d;\n",
    "#[allow(unused_imports)]\n",
    "use ironidl_core::\x7b\n",
    "    copy_native_string, take_native_string, to_native_string, Boolean, BoundaryError,\n",
    "    BoundaryHandle, ExceptionState, OpaquePtr, RustMethods, RustValue, RustValueStatus,\n",
    "    ScriptValueRef, ScriptValueRefRustMethods,\n",
    "\x7d;\n",
    "#[allow(unused_imports)]\n",
    "use crate::*;\n",
    "\n",
    "\x7b\x7bcontent\x7d\x7d\n"]

/-- A method table and its wrapper. -/
def interfaceLines : List String :=
  ["#[repr(C)]\n",
    "pub struct \x7b\x7bobject_name\x7d\x7dRustMethods \x7b\n",
    "    pub version: c_double,\n",
    "\x7b\x7bparent_table_field\x7d\x7d\x7b\x7btable_fields\x7d\x7d\x7d\n",
    "\n",
    "impl RustMethods for \x7b\x7bobject_name\x7d\x7dRustMethods \x7b\n",
    "    fn version(&self) -> c_double \x7b\n",
    "        self.version\n",
    "    \x7d\n",
    "\x7d\n",
    "\n",
    "pub struct \x7b\x7bobject_name\x7d\x7d \x7b\n",
    "\x7b\x7bparent_field\x7d\x7d    boundary: BoundaryHandle<\x7b\x7bobject_name\x7d\x7dRustMethods>,\n",
    "\x7d\n",
    "\n",
    "impl \x7b\x7bobject_name\x7d\x7d \x7b\n",
    "    pub const CLASS_NAME: &'static str = \"\x7b\x7bclass_name\x7d\x7d\";\n",
    "\n",
    "    /// Wraps a native object.\n",
    "    ///\n",
    "    /// # Safety\n",
    "    /// `boundary` must describe a live object whose method table has the\n",
    "    /// `\x7b\x7bobject_name\x7d\x7dRustMethods` layout.\n",
    "    pub unsafe fn initialize(\n",
    "        boundary: BoundaryHandle<\x7b\x7bobject_name\x7d\x7dRustMethods>,\n",
    "    ) -> Result<Self, BoundaryError> \x7b\n",
    "\x7b\x7binitialize_body\x7d\x7d    \x7d\n",
    "\n",
    "    pub fn boundary(&self) -> &BoundaryHandle<\x7b\x7bobject_name\x7d\x7dRustMethods> \x7b\n",
    "        &self.boundary\n",
    "    \x7d\n",
    "\n",
    "\x7b\x7bmembers\x7d\x7d\x7d\n",
    "\n",
    "\x7b\x7binheritance\x7d\x7d\n"]

/-- A dictionary with its native form and the owner of its strings. -/
def dictionaryLines : List String :=
  ["#[derive(Debug, Clone, PartialEq)]\n",
    "pub struct \x7b\x7bobject_name\x7d\x7d \x7b\n",
    "\x7b\x7bfields\x7d\x7d\x7d\n",
    "\n",
    "#[repr(C)]\n",
    "pub struct Raw\x7b\x7bobject_name\x7d\x7d \x7b\n",
    "\x7b\x7braw_fields\x7d\x7d\x7d\n",
    "\n",
    "/// Keeps the buffers referenced by a `Raw\x7b\x7bobject_name\x7d\x7d` alive.\n",
    "pub struct Native\x7b\x7bobject_name\x7d\x7d \x7b\n",
    "    raw: Raw\x7b\x7bobject_name\x7d\x7d,\n",
    "    _strings: Vec<CString>,\n",
    "\x7d\n",
    "\n",
    "impl Native\x7b\x7bobject_name\x7d\x7d \x7b\n",
    "    pub fn as_raw(&self) -> *const Raw\x7b\x7bobject_name\x7d\x7d \x7b\n",
    "        &self.raw\n",
    "    \x7d\n",
    "\x7d\n",
    "\n",
    "impl \x7b\x7bobject_name\x7d\x7d \x7b\n",
    "    pub const CLASS_NAME: &'static str = \"\x7b\x7bclass_name\x7d\x7d\";\n",
    "\n",
    "    pub fn to_native(&self) -> Result<Native\x7b\x7bobject_name\x7d\x7d, BoundaryError> \x7b\n",
    "        #[allow(unused_mut)]\n",
    "        let mut strings: Vec<CString> = Vec::new();\n",
    "\x7b\x7bto_native_body\x7d\x7d        Ok(Native\x7b\x7bobject_name\x7d\x7d \x7b\n",
    "            raw: Raw\x7b\x7bobject_name\x7d\x7d \x7b\n",
    "\x7b\x7braw_init\x7d\x7d            \x7d,\n",
    "            _strings: strings,\n",
    "        \x7d)\n",
    "    \x7d\n",
    "\n",
    "    /// Copies a native dictionary.\n",
    "    ///\n",
    "    /// # Safety\n",
    "    /// `raw` must be null or point to a valid `Raw\x7b\x7bobject_name\x7d\x7d` whose\n",
    "    /// string fields stay valid for the duration of the call.\n",
    "    pub unsafe fn from_raw(raw: *const Raw\x7b\x7bobject_name\x7d\x7d) -> Result<Self, BoundaryError> \x7b\n",
    "        if raw.is_null() \x7b\n",
    "            return Err(BoundaryError::null(\"\x7b\x7bclass_name\x7d\x7d\"));\n",
    "        \x7d\n",
    "        let raw = unsafe \x7b &*raw \x7d;\n",
    "        Ok(Self \x7b\n",
    "\x7b\x7bfrom_raw_fields\x7d\x7d        \x7d)\n",
    "    \x7d\n",
    "\x7d\n"]

/-- A free function. The template is checked, but nothing is rendered by it. -/
def globalFunctionLines : List String :=
  ["// \x7b\x7bname\x7d\x7d: free functions are not bound.\n",
    "\x7b\x7bcontent\x7d\x7d\n"]

def standardLines : TemplateKind → List String
  | .base => baseLines
  | .interface => interfaceLines
  | .dictionary => dictionaryLines
  | .globalFunction => globalFunctionLines

def standardSource (kind : TemplateKind) : String :=
  String.join (standardLines kind)

end IdlBindings.Template
