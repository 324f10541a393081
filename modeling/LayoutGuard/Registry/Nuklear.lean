import LayoutGuard.Registry

/-!
The built-in registry: every composite type of Nuklear that the Odin binding
mirrors, in the order in which the assertions are written.
-/

namespace LayoutGuard.Registry

private def struct (name odinName : String) : Binding :=
  ⟨⟨.struct, name⟩, odinName⟩

private def union (name odinName : String) : Binding :=
  ⟨⟨.union, name⟩, odinName⟩

private def typedef (name odinName : String) : Binding :=
  ⟨⟨.typedef, name⟩, odinName⟩

def geometryBindings : List Binding :=
  [struct "nk_rect" "Rect",
   struct "nk_recti" "RectI",
   typedef "nk_handle" "Handle",
   struct "nk_image" "Image",
   struct "nk_nine_slice" "Nine_Slice",
   struct "nk_cursor" "Cursor",
   struct "nk_scroll" "Scroll"]

def memoryBindings : List Binding :=
  [struct "nk_allocator" "Allocator",
   struct "nk_list_view" "List_View",
   struct "nk_user_font" "User_Font",
   struct "nk_memory_status" "Memory_Status",
   struct "nk_buffer_marker" "Buffer_Marker",
   struct "nk_memory" "Memory",
   struct "nk_buffer" "Buffer",
   struct "nk_str" "Str"]

def textEditingBindings : List Binding :=
  [struct "nk_clipboard" "Clipboard",
   struct "nk_text_undo_record" "Text_Undo_Record",
   struct "nk_text_undo_state" "Text_Undo_State",
   struct "nk_text_edit" "Text_Edit"]

def drawCommandsBindings : List Binding :=
  [struct "nk_command" "Command",
   struct "nk_command_scissor" "Command_Scissor",
   struct "nk_command_line" "Command_Line",
   struct "nk_command_curve" "Command_Curve",
   struct "nk_command_rect" "Command_Rect",
   struct "nk_command_rect_filled" "Command_Rect_Filled",
   struct "nk_command_rect_multi_color" "Command_Rect_Multi_Color",
   struct "nk_command_triangle" "Command_Triangle",
   struct "nk_command_triangle_filled" "Command_Triangle_Filled",
   struct "nk_command_circle" "Command_Circle",
   struct "nk_command_circle_filled" "Command_Circle_Filled",
   struct "nk_command_arc" "Command_Arc",
   struct "nk_command_arc_filled" "Command_Arc_Filled",
   struct "nk_command_polygon" "Command_Polygon",
   struct "nk_command_polygon_filled" "Command_Polygon_Filled",
   struct "nk_command_polyline" "Command_Polyline",
   struct "nk_command_image" "Command_Image",
   struct "nk_command_custom" "Command_Custom",
   struct "nk_command_text" "Command_Text",
   struct "nk_command_buffer" "Command_Buffer"]

def inputBindings : List Binding :=
  [struct "nk_mouse_button" "Mouse_Button",
   struct "nk_mouse" "Mouse",
   struct "nk_key" "Key",
   struct "nk_keyboard" "Keyboard",
   struct "nk_input" "Input"]

def styleBindings : List Binding :=
  [union "nk_style_item_data" "Style_Item_Data",
   struct "nk_style_item" "Style_Item",
   struct "nk_style_text" "Style_Text",
   struct "nk_style_button" "Style_Button",
   struct "nk_style_toggle" "Style_Toggle",
   struct "nk_style_selectable" "Style_Selectable",
   struct "nk_style_slider" "Style_Slider",
   struct "nk_style_progress" "Style_Progress",
   struct "nk_style_scrollbar" "Style_Scrollbar",
   struct "nk_style_edit" "Style_Edit",
   struct "nk_style_property" "Style_Property",
   struct "nk_style_chart" "Style_Chart",
   struct "nk_style_combo" "Style_Combo",
   struct "nk_style_tab" "Style_Tab",
   struct "nk_style_window" "Style_Window",
   struct "nk_style" "Style"]

/-- Layout, windows and the context. `nk_style_item_data` is listed here for the
second time, so its size is asserted twice. -/
def windowsBindings : List Binding :=
  [struct "nk_chart_slot" "Chart_Slot",
   struct "nk_chart" "Chart",
   struct "nk_row_layout" "Row_Layout",
   struct "nk_popup_buffer" "Popup_Buffer",
   struct "nk_menu_state" "Menu_State",
   struct "nk_panel" "Panel",
   struct "nk_popup_state" "Popup_State",
   struct "nk_edit_state" "Edit_State",
   struct "nk_property_state" "Property_State",
   struct "nk_window" "Window",
   struct "nk_configuration_stacks" "Configuration_Stacks",
   struct "nk_table" "Table",
   union "nk_page_data" "Page_Data",
   union "nk_style_item_data" "Style_Item_Data",
   struct "nk_page_element" "Page_Element",
   struct "nk_page" "Page",
   struct "nk_pool" "Pool",
   struct "nk_context" "Context"]

def configurationStacksBindings : List Binding :=
  [struct "nk_config_stack_style_item" "Config_Stack_Style_Item",
   struct "nk_config_stack_float" "Config_Stack_Float",
   struct "nk_config_stack_vec2" "Config_Stack_Vec2",
   struct "nk_config_stack_flags" "Config_Stack_Flags",
   struct "nk_config_stack_color" "Config_Stack_Color",
   struct "nk_config_stack_user_font" "Config_Stack_User_Font",
   struct "nk_config_stack_button_behavior" "Config_Stack_Button_Behavior"]

/-- All types shared with Nuklear. -/
def nuklear : Registry :=
  ⟨geometryBindings ++
   memoryBindings ++
   textEditingBindings ++
   drawCommandsBindings ++
   inputBindings ++
   styleBindings ++
   windowsBindings ++
   configurationStacksBindings⟩

end LayoutGuard.Registry
